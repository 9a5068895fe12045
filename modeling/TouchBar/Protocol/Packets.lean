import TouchBar.Protocol.BrokerIpc

/-!
# Packets and messages correspond

For each part of a packet, the bytes it is written as and the limits under which it is
written; the encoder and the decoder are both characterized by these two.  That makes
the codecs of both directions bijections between the messages within the limits and the
accepted packets.
-/

namespace TouchBar.Protocol

open TouchBar.Rust TouchBar.Lib TouchBar.Supervisor Outcome

variable {input rest bytes : List UInt8}

/-! ## Fields -/

/-- The strings that a field with this limit can carry. -/
def Bounded (maximum : ℕ) (value : String) : Prop :=
  Text.len value ≠ 0 ∧ Text.len value ≤ maximum

/-- The bytes of a string with its length in front. -/
def writeText (value : String) : List UInt8 := leBytes 2 (Text.len value) ++ Text.asBytes value

/-- Bytes with their length in front. -/
def writeBytes (value : List UInt8) : List UInt8 := leBytes 4 value.length ++ value

lemma isEmpty_eq_false_iff {value : String} :
    Text.isEmpty value = false ↔ Text.len value ≠ 0 := by
  rw [Text.isEmpty, Text.len, List.isEmpty_eq_false_iff, not_iff_not]
  simp

namespace Encoder

lemma string_eq_ok {value : String} {maximum : ℕ} (hmax : maximum ≤ 65535) :
    string value maximum = ok bytes ↔ Bounded maximum value ∧ bytes = writeText value := by
  rw [string, ite_err_eq_ok, Outcome.ok.injEq]
  simp only [Bool.or_eq_true, decide_eq_true_eq, not_or, not_lt, Bool.not_eq_true,
    isEmpty_eq_false_iff, Bounded]
  constructor
  · rintro ⟨⟨⟨hne, hlen⟩, -⟩, rfl⟩
    exact ⟨⟨hne, hlen⟩, rfl⟩
  · rintro ⟨⟨hne, hlen⟩, rfl⟩
    exact ⟨⟨⟨hne, hlen⟩, hlen.trans hmax⟩, rfl⟩

lemma bytes_eq_ok {value : List UInt8} (h : value.length < UInt32.size) :
    Encoder.bytes value = ok bytes ↔ bytes = writeBytes value := by
  rw [Encoder.bytes, if_neg (not_le.mpr h), Outcome.ok.injEq]
  exact eq_comm

@[simp] lemma finish_eq_ok {body : List UInt8} :
    finish body = ok bytes ↔ bytes.length ≤ maxBrokerPacketBytes ∧ bytes = body := by
  rw [finish, ite_err_eq_ok, not_lt, Outcome.ok.injEq]
  constructor
  · rintro ⟨h, rfl⟩
    exact ⟨h, rfl⟩
  · rintro ⟨h, rfl⟩
    exact ⟨h, rfl⟩

end Encoder

namespace Decoder

lemma take_eq_ok {n : ℕ} {value : List UInt8} :
    take n input = ok (value, rest) ↔ value.length = n ∧ input = value ++ rest :=
  Reader.front_eq_ok

@[simp] lemma u8_eq_ok {value : UInt8} : u8 input = ok (value, rest) ↔ input = value :: rest :=
  Reader.symbol_eq_ok

lemma length_eq_ok {width n : ℕ} :
    length width input = ok (n, rest) ↔ n < 256 ^ width ∧ input = leBytes width n ++ rest :=
  leValue_map_eq_ok fun _ _ _ => take_eq_ok

@[simp] lemma u64_eq_ok {value : UInt64} :
    u64 input = ok (value, rest) ↔ input = Encoder.u64 value ++ rest :=
  exact_le (fun _ _ _ => take_eq_ok) (fun a => a.toNat_lt) (fun _ => UInt64.ofNat_toNat)
    fun _ hn => UInt64.toNat_ofNat_of_lt' hn

lemma string_eq_ok {value : String} {maximum : ℕ} (hmax : maximum ≤ 65535) :
    string maximum input = ok (value, rest) ↔
      Bounded maximum value ∧ input = writeText value ++ rest := by
  simp only [string, Reader.bind_eq_ok, length_eq_ok, fail, Reader.ite_eq_ok, take_eq_ok,
    Reader.utf8_eq_ok, Bool.or_eq_true, decide_eq_true_eq, not_or, not_lt]
  constructor
  · rintro ⟨length, _, ⟨-, rfl⟩, hlength, _, _, ⟨rfl, rfl⟩, rfl, rfl⟩
    exact ⟨hlength, (List.append_assoc ..).symm⟩
  · rintro ⟨hlength, rfl⟩
    have hlt : Text.len value < 256 ^ 2 := lt_of_le_of_lt (hlength.2.trans hmax) (by decide)
    exact ⟨Text.len value, _, ⟨hlt, List.append_assoc ..⟩, hlength, Text.asBytes value, rest,
      ⟨rfl, rfl⟩, rfl, rfl⟩

lemma bytes_eq_ok {value : List UInt8} {maximum : ℕ} (hmax : maximum < UInt32.size) :
    Decoder.bytes maximum input = ok (value, rest) ↔
      value.length ≤ maximum ∧ input = writeBytes value ++ rest := by
  simp only [Decoder.bytes, Reader.bind_eq_ok, length_eq_ok, Reader.ite_eq_ok, take_eq_ok, not_lt]
  constructor
  · rintro ⟨length, _, ⟨-, rfl⟩, hlength, rfl, rfl⟩
    exact ⟨hlength, (List.append_assoc ..).symm⟩
  · rintro ⟨hlength, rfl⟩
    have hlt : value.length < 256 ^ 4 := lt_of_le_of_lt hlength hmax
    exact ⟨value.length, _, ⟨hlt, List.append_assoc ..⟩, hlength, rfl, rfl⟩

lemma code_eq_ok {α : Type} {ofCode : UInt8 → Option α} {codeOf : α → UInt8}
    (h : ∀ c a, ofCode c = some a ↔ c = codeOf a) {message : String} {value : α} :
    code ofCode message input = ok (value, rest) ↔ input = codeOf value :: rest :=
  Reader.coded_eq_ok h

/-- A packet is accepted when it is the header of its kind followed by fields that are
accepted to the end. -/
lemma run_eq_ok {α : Type} {fields : UInt8 → Decoder α} {packet : List UInt8} {value : α} :
    run fields packet = ok value ↔
      ∃ kind body, packet = Encoder.header kind ++ body ∧ fields kind body = ok (value, []) := by
  constructor
  · intro h
    unfold run at h
    split at h
    · next m₀ m₁ m₂ m₃ v₀ v₁ kind reserved remaining =>
      simp only [ite_err_eq_ok, not_not, Outcome.bind_eq_ok, Prod.exists] at h
      obtain ⟨hmagic, hversion, rfl, found, left, hfields, hleft⟩ := h
      have hbytes : [v₀, v₁] = leBytes 2 brokerProtocolVersion := by
        rw [← hversion]
        exact (leBytes_leValue [v₀, v₁]).symm
      refine ⟨kind, remaining, ?_, ?_⟩
      · rw [Encoder.header, ← hmagic, ← hbytes]
        rfl
      · cases left with
        | nil =>
          obtain rfl : found = value := Outcome.ok.inj hleft
          exact hfields
        | cons b left => cases hleft
    · cases h
  · rintro ⟨kind, body, rfl, h⟩
    change run fields (0x4f :: 0x54 :: 0x42 :: 0x50 :: 1 :: 0 :: kind :: 0 :: body) = ok value
    rw [run, if_neg (by decide), if_neg (by decide), if_neg (by decide), h]
    rfl

end Decoder

/-! ## Parts of messages -/

lemma maxInlinePayloadBytes_lt : maxInlinePayloadBytes < UInt32.size := by decide

namespace CapabilityState

/-- The bytes of a state. -/
def write (state : CapabilityState) : List UInt8 :=
  writeText state.capability ++ [flagCode state.required, statusCode state.status]

lemma encode_eq_ok {state : CapabilityState} :
    Encoder.state state = ok bytes ↔
      Bounded maxCapabilityIdBytes state.capability ∧ bytes = state.write := by
  simp only [Encoder.state, Outcome.bind_eq_ok,
    Encoder.string_eq_ok (by decide : maxCapabilityIdBytes ≤ 65535), Outcome.pure_eq,
    Outcome.ok.injEq]
  constructor
  · rintro ⟨_, ⟨hid, rfl⟩, rfl⟩
    exact ⟨hid, rfl⟩
  · rintro ⟨hid, rfl⟩
    exact ⟨_, ⟨hid, rfl⟩, rfl⟩

lemma decode_eq_ok {state : CapabilityState} :
    Decoder.state input = ok (state, rest) ↔
      Bounded maxCapabilityIdBytes state.capability ∧ input = state.write ++ rest := by
  obtain ⟨capability, required, status⟩ := state
  simp [Decoder.state, write, Decoder.string_eq_ok (by decide : maxCapabilityIdBytes ≤ 65535),
    Decoder.code_eq_ok fun _ _ => decodeFlag_eq_some,
    Decoder.code_eq_ok fun _ _ => decodeStatus_eq_some, -Bool.exists_bool]

lemma write_length_le {state : CapabilityState}
    (h : Bounded maxCapabilityIdBytes state.capability) : state.write.length ≤ 132 := by
  have hlen : Text.len state.capability ≤ 128 := h.2
  simp only [write, writeText, List.length_append, leBytes_length, Text.length_asBytes,
    List.length_cons, List.length_nil]
  omega

end CapabilityState

namespace ActivationContext

/-- The bytes of an activation after its marker. -/
def write (activation : ActivationContext) : List UInt8 :=
  originCode activation.origin :: (Encoder.u64 activation.surfaceInstance ++
    (writeText activation.itemId ++ (Encoder.u64 activation.widgetId ++
      (Encoder.u64 activation.inputSequence ++ Encoder.u64 activation.deadlineMonotonicMicros))))

/-- The bytes of an optional activation. -/
def writeOption : Option ActivationContext → List UInt8
  | none => [0]
  | some activation => 1 :: activation.write

lemma encode_eq_ok {activation : Option ActivationContext} :
    Encoder.activation activation = ok bytes ↔
      (∀ a ∈ activation, Bounded maxItemIdBytes a.itemId) ∧ bytes = writeOption activation := by
  cases activation with
  | none => simp [Encoder.activation, writeOption, flagCode, eq_comm]
  | some activation =>
    simp only [Encoder.activation, Outcome.bind_eq_ok,
      Encoder.string_eq_ok (by decide : maxItemIdBytes ≤ 65535), Outcome.pure_eq,
      Outcome.ok.injEq, Option.mem_some_iff, forall_eq']
    constructor
    · rintro ⟨_, ⟨hid, rfl⟩, rfl⟩
      exact ⟨hid, by simp [writeOption, write, flagCode]⟩
    · rintro ⟨hid, rfl⟩
      exact ⟨_, ⟨hid, rfl⟩, by simp [writeOption, write, flagCode]⟩

lemma decode_eq_ok {activation : Option ActivationContext} :
    Decoder.activation input = ok (activation, rest) ↔
      (∀ a ∈ activation, Bounded maxItemIdBytes a.itemId) ∧
        input = writeOption activation ++ rest := by
  rw [Decoder.activation, Reader.bind_eq_ok]
  simp only [Decoder.u8_eq_ok]
  constructor
  · rintro ⟨tag, mid, rfl, h⟩
    split at h
    · obtain ⟨rfl, rfl⟩ := Reader.pure_eq_ok.mp h
      exact ⟨by simp, rfl⟩
    · simp only [Reader.bind_eq_ok, Decoder.code_eq_ok fun _ _ => decodeOrigin_eq_some,
        Decoder.u64_eq_ok, Decoder.string_eq_ok (by decide : maxItemIdBytes ≤ 65535),
        Reader.pure_eq_ok] at h
      obtain ⟨origin, _, rfl, surface, _, rfl, itemId, _, ⟨hid, rfl⟩, widget, _, rfl, sequence, _,
        rfl, deadline, _, rfl, rfl, rfl⟩ := h
      exact ⟨by simpa using hid, by simp [writeOption, write]⟩
    · cases h
  · rintro ⟨hvalid, rfl⟩
    cases activation with
    | none => exact ⟨0, _, rfl, rfl⟩
    | some activation =>
      obtain ⟨origin, surface, itemId, widget, sequence, deadline⟩ := activation
      have hid : Bounded maxItemIdBytes itemId := hvalid _ rfl
      refine ⟨1, _, rfl, ?_⟩
      simp [write, Decoder.code_eq_ok fun _ _ => decodeOrigin_eq_some,
        Decoder.string_eq_ok (by decide : maxItemIdBytes ≤ 65535), hid]

lemma writeOption_length_le {activation : Option ActivationContext}
    (h : ∀ a ∈ activation, Bounded maxItemIdBytes a.itemId) :
    (writeOption activation).length ≤ 292 := by
  cases activation with
  | none => simp [writeOption]
  | some activation =>
    have hlen : Text.len activation.itemId ≤ 256 := (h activation rfl).2
    simp only [writeOption, write, writeText, Encoder.u64, List.length_append, leBytes_length,
      Text.length_asBytes, List.length_cons]
    omega

end ActivationContext

namespace BrokerResult

/-- The results that fit. -/
def Valid : BrokerResult → Prop
  | success payload => payload.length ≤ maxInlinePayloadBytes
  | error _ => True

/-- The bytes of a result. -/
def write : BrokerResult → List UInt8
  | success payload => 0 :: writeBytes payload
  | error code => [1, errorCode code]

lemma encode_eq_ok {result : BrokerResult} :
    Encoder.result result = ok bytes ↔ result.Valid ∧ bytes = result.write := by
  cases result with
  | success payload =>
    simp only [Encoder.result, ite_err_eq_ok, not_lt, Valid, write]
    refine and_congr_right fun hlen => ?_
    have hbytes : Encoder.bytes payload = ok (writeBytes payload) :=
      (Encoder.bytes_eq_ok (lt_of_le_of_lt hlen maxInlinePayloadBytes_lt)).mpr rfl
    simp [hbytes, eq_comm]
  | error code => simp [Encoder.result, Valid, write, eq_comm]

lemma decode_eq_ok {message : String} {result : BrokerResult} :
    Decoder.result message input = ok (result, rest) ↔
      result.Valid ∧ input = result.write ++ rest := by
  rw [Decoder.result, Reader.bind_eq_ok]
  simp only [Decoder.u8_eq_ok]
  constructor
  · rintro ⟨tag, mid, rfl, h⟩
    split at h
    · simp only [Reader.map_eq_ok, Decoder.bytes_eq_ok maxInlinePayloadBytes_lt] at h
      obtain ⟨payload, ⟨hlen, rfl⟩, rfl⟩ := h
      exact ⟨hlen, rfl⟩
    · simp only [Reader.map_eq_ok, Decoder.code_eq_ok fun _ _ => decodeError_eq_some] at h
      obtain ⟨code, rfl, rfl⟩ := h
      exact ⟨trivial, rfl⟩
    · cases h
  · rintro ⟨hvalid, rfl⟩
    cases result with
    | success payload =>
      have hlen : payload.length ≤ maxInlinePayloadBytes := hvalid
      exact ⟨0, _, rfl, by simp [Decoder.bytes_eq_ok maxInlinePayloadBytes_lt, hlen]⟩
    | error code =>
      exact ⟨1, _, rfl, by simp [Decoder.code_eq_ok fun _ _ => decodeError_eq_some]⟩

lemma write_length_le {result : BrokerResult} (h : result.Valid) :
    result.write.length ≤ maxInlinePayloadBytes + 5 := by
  cases result with
  | success payload =>
    have hlen : payload.length ≤ maxInlinePayloadBytes := h
    simp only [write, writeBytes, List.length_cons, List.length_append, leBytes_length]
    omega
  | error code => simp [write]

end BrokerResult

/-! ## Messages of the host -/

lemma header_length (kind : UInt8) : (Encoder.header kind).length = 8 := rfl

lemma u64_length (value : UInt64) : (Encoder.u64 value).length = 8 := leBytes_length 8 _

namespace HostMessage

/-- The messages within their limits. -/
def Valid : HostMessage → Prop
  | request _ _ capability operation payload activation =>
    Bounded maxCapabilityIdBytes capability ∧ Bounded maxOperationIdBytes operation ∧
      payload.length ≤ maxInlinePayloadBytes ∧
        ∀ a ∈ activation, Bounded maxItemIdBytes a.itemId
  | _ => True

def kind : HostMessage → UInt8
  | getCapabilities _ => 1
  | request _ _ _ _ _ _ => 2
  | cancel _ _ => 3
  | close _ _ => 4

/-- The bytes of a message after the header. -/
def write : HostMessage → List UInt8
  | getCapabilities requestId => Encoder.u64 requestId
  | request requestId phase capability operation payload activation =>
    Encoder.u64 requestId ++ phaseCode phase :: (writeText capability ++ (writeText operation ++
      (writeBytes payload ++ ActivationContext.writeOption activation)))
  | cancel requestId targetRequestId => Encoder.u64 requestId ++ Encoder.u64 targetRequestId
  | close requestId resourceId => Encoder.u64 requestId ++ Encoder.u64 resourceId

/-- A message within its limits fits into a packet. -/
lemma packet_length_le {message : HostMessage} (h : message.Valid) :
    (Encoder.header message.kind ++ message.write).length ≤ maxBrokerPacketBytes := by
  cases message with
  | request requestId phase capability operation payload activation =>
    obtain ⟨⟨-, hcapability⟩, ⟨-, hoperation⟩, hpayload, hactivation⟩ := h
    have hlength := ActivationContext.writeOption_length_le hactivation
    simp only [write, writeText, writeBytes, List.length_append, header_length, u64_length,
      List.length_cons, leBytes_length, Text.length_asBytes]
    unfold maxCapabilityIdBytes at hcapability
    unfold maxOperationIdBytes at hoperation
    unfold maxInlinePayloadBytes at hpayload
    unfold maxBrokerPacketBytes
    omega
  | getCapabilities requestId => simp [write, header_length, u64_length, maxBrokerPacketBytes]
  | cancel requestId target => simp [write, header_length, u64_length, maxBrokerPacketBytes]
  | close requestId resource => simp [write, header_length, u64_length, maxBrokerPacketBytes]

lemma encode_eq_ok {message : HostMessage} :
    encodeHost message = ok bytes ↔
      message.Valid ∧ bytes = Encoder.header message.kind ++ message.write := by
  constructor
  · intro h
    cases message with
    | request requestId phase capability operation payload activation =>
      simp only [encodeHost, ite_err_eq_ok, not_lt, Outcome.bind_eq_ok,
        Encoder.string_eq_ok (by decide : maxCapabilityIdBytes ≤ 65535),
        Encoder.string_eq_ok (by decide : maxOperationIdBytes ≤ 65535),
        ActivationContext.encode_eq_ok, Encoder.finish_eq_ok] at h
      obtain ⟨hlen, _, ⟨hcapability, rfl⟩, _, ⟨hoperation, rfl⟩, _, hbytes, _,
        ⟨hactivation, rfl⟩, -, rfl⟩ := h
      obtain rfl :=
        (Encoder.bytes_eq_ok (lt_of_le_of_lt hlen maxInlinePayloadBytes_lt)).mp hbytes
      exact ⟨⟨hcapability, hoperation, hlen, hactivation⟩, by simp [write, kind]⟩
    | getCapabilities requestId => exact ⟨trivial, (Encoder.finish_eq_ok.mp h).2⟩
    | cancel requestId target =>
      exact ⟨trivial, by simpa [write, kind] using (Encoder.finish_eq_ok.mp h).2⟩
    | close requestId resource =>
      exact ⟨trivial, by simpa [write, kind] using (Encoder.finish_eq_ok.mp h).2⟩
  · rintro ⟨hvalid, rfl⟩
    have hsize := packet_length_le hvalid
    cases message with
    | request requestId phase capability operation payload activation =>
      obtain ⟨hcapability, hoperation, hlen, hactivation⟩ := hvalid
      have hbytes : Encoder.bytes payload = ok (writeBytes payload) :=
        (Encoder.bytes_eq_ok (lt_of_le_of_lt hlen maxInlinePayloadBytes_lt)).mpr rfl
      simp only [encodeHost, ite_err_eq_ok, not_lt, Outcome.bind_eq_ok,
        Encoder.string_eq_ok (by decide : maxCapabilityIdBytes ≤ 65535),
        Encoder.string_eq_ok (by decide : maxOperationIdBytes ≤ 65535),
        ActivationContext.encode_eq_ok, Encoder.finish_eq_ok]
      exact ⟨hlen, _, ⟨hcapability, rfl⟩, _, ⟨hoperation, rfl⟩, _, hbytes, _, ⟨hactivation, rfl⟩,
        hsize, by simp [write, kind]⟩
    | getCapabilities requestId => exact Encoder.finish_eq_ok.mpr ⟨hsize, rfl⟩
    | cancel requestId target =>
      exact Encoder.finish_eq_ok.mpr ⟨hsize, by simp [write, kind]⟩
    | close requestId resource =>
      exact Encoder.finish_eq_ok.mpr ⟨hsize, by simp [write, kind]⟩

lemma decodeFields_eq_ok {tag : UInt8} {message : HostMessage} :
    decodeHostFields tag input = ok (message, rest) ↔
      tag = message.kind ∧ message.Valid ∧ input = message.write ++ rest := by
  rw [decodeHostFields, Reader.bind_eq_ok]
  simp only [Decoder.u64_eq_ok]
  constructor
  · rintro ⟨requestId, mid, rfl, h⟩
    split at h
    · obtain ⟨rfl, rfl⟩ := Reader.pure_eq_ok.mp h
      exact ⟨rfl, trivial, rfl⟩
    · simp only [Reader.bind_eq_ok, Decoder.code_eq_ok fun _ _ => decodePhase_eq_some,
        Decoder.string_eq_ok (by decide : maxCapabilityIdBytes ≤ 65535),
        Decoder.string_eq_ok (by decide : maxOperationIdBytes ≤ 65535),
        Decoder.bytes_eq_ok maxInlinePayloadBytes_lt, ActivationContext.decode_eq_ok,
        Reader.pure_eq_ok] at h
      obtain ⟨phase, _, rfl, capability, _, ⟨hcapability, rfl⟩, operation, _, ⟨hoperation, rfl⟩,
        payload, _, ⟨hpayload, rfl⟩, activation, _, ⟨hactivation, rfl⟩, rfl, rfl⟩ := h
      exact ⟨rfl, ⟨hcapability, hoperation, hpayload, hactivation⟩, by simp [write]⟩
    · simp only [Reader.map_eq_ok, Decoder.u64_eq_ok] at h
      obtain ⟨target, rfl, rfl⟩ := h
      exact ⟨rfl, trivial, by simp [write]⟩
    · simp only [Reader.map_eq_ok, Decoder.u64_eq_ok] at h
      obtain ⟨resource, rfl, rfl⟩ := h
      exact ⟨rfl, trivial, by simp [write]⟩
    · cases h
  · rintro ⟨rfl, hvalid, rfl⟩
    cases message with
    | getCapabilities requestId => exact ⟨requestId, rest, rfl, rfl⟩
    | request requestId phase capability operation payload activation =>
      obtain ⟨hcapability, hoperation, hlen, hactivation⟩ := hvalid
      refine ⟨requestId, _, by simp only [write, List.append_assoc]; rfl, ?_⟩
      simp only [kind, Reader.bind_eq_ok, Decoder.code_eq_ok fun _ _ => decodePhase_eq_some,
        Decoder.string_eq_ok (by decide : maxCapabilityIdBytes ≤ 65535),
        Decoder.string_eq_ok (by decide : maxOperationIdBytes ≤ 65535),
        Decoder.bytes_eq_ok maxInlinePayloadBytes_lt, ActivationContext.decode_eq_ok,
        Reader.pure_eq_ok]
      exact ⟨phase, _, rfl, capability, _, ⟨hcapability, by simp⟩, operation, _,
        ⟨hoperation, rfl⟩, payload, _, ⟨hlen, rfl⟩, activation, rest, ⟨hactivation, rfl⟩, rfl, rfl⟩
    | cancel requestId target =>
      exact ⟨requestId, _, List.append_assoc .., by simp [kind]⟩
    | close requestId resource =>
      exact ⟨requestId, _, List.append_assoc .., by simp [kind]⟩

lemma decode_eq_ok {message : HostMessage} :
    decodeHost bytes = ok message ↔
      message.Valid ∧ bytes = Encoder.header message.kind ++ message.write := by
  rw [decodeHost, Decoder.run_eq_ok]
  simp only [decodeFields_eq_ok, List.append_nil]
  constructor
  · rintro ⟨_, _, rfl, rfl, hvalid, rfl⟩
    exact ⟨hvalid, rfl⟩
  · rintro ⟨hvalid, rfl⟩
    exact ⟨_, _, rfl, rfl, hvalid, rfl⟩

end HostMessage

/-! ## Messages of the supervisor -/

namespace SupervisorMessage

/-- The messages within their limits. -/
def Valid : SupervisorMessage → Prop
  | capabilities _ _ states =>
    states.length ≤ maxCapabilityStates ∧
      ∀ state ∈ states, Bounded maxCapabilityIdBytes state.capability
  | response _ result => result.Valid
  | capabilityChanged _ state => Bounded maxCapabilityIdBytes state.capability
  | resourceEvent _ _ result => result.Valid
  | _ => True

def kind : SupervisorMessage → UInt8
  | capabilities _ _ _ => 101
  | response _ _ => 102
  | capabilityChanged _ _ => 103
  | shutdown _ _ => 104
  | overflow _ _ => 105
  | resourceEvent _ _ _ => 106

/-- The bytes of a message after the header. -/
def write : SupervisorMessage → List UInt8
  | capabilities requestId generation states =>
    Encoder.u64 requestId ++ (Encoder.u64 generation ++ (leBytes 2 states.length ++
      states.flatMap CapabilityState.write))
  | response requestId result => Encoder.u64 requestId ++ result.write
  | capabilityChanged generation state => Encoder.u64 generation ++ state.write
  | shutdown generation reason => Encoder.u64 generation ++ [errorCode reason]
  | overflow generation droppedEvents => Encoder.u64 generation ++ Encoder.u64 droppedEvents
  | resourceEvent resourceId sequence result =>
    Encoder.u64 resourceId ++ (Encoder.u64 sequence ++ result.write)

lemma states_length_le {states : List CapabilityState}
    (h : ∀ state ∈ states, Bounded maxCapabilityIdBytes state.capability) :
    (states.flatMap CapabilityState.write).length ≤ 132 * states.length := by
  induction states with
  | nil => simp
  | cons state states ih =>
    rw [List.forall_mem_cons] at h
    have hstate := CapabilityState.write_length_le h.1
    have hstates := ih h.2
    rw [List.flatMap_cons, List.length_append, List.length_cons]
    omega

/-- A message within its limits fits into a packet. -/
lemma packet_length_le {message : SupervisorMessage} (h : message.Valid) :
    (Encoder.header message.kind ++ message.write).length ≤ maxBrokerPacketBytes := by
  have hinline : maxInlinePayloadBytes = 61440 := rfl
  have hpacket : maxBrokerPacketBytes = 65536 := rfl
  rw [List.length_append, header_length]
  cases message with
  | capabilities requestId generation states =>
    have hcount : states.length ≤ 64 := h.1
    have hstates := states_length_le h.2
    simp only [write, List.length_append, u64_length, leBytes_length]
    omega
  | response requestId result =>
    have hresult := BrokerResult.write_length_le h
    simp only [write, List.length_append, u64_length]
    omega
  | capabilityChanged generation state =>
    have hstate := CapabilityState.write_length_le h
    simp only [write, List.length_append, u64_length]
    omega
  | shutdown generation reason =>
    simp only [write, List.length_append, u64_length, List.length_singleton]
    omega
  | overflow generation droppedEvents =>
    simp only [write, List.length_append, u64_length]
    omega
  | resourceEvent resourceId sequence result =>
    have hresult := BrokerResult.write_length_le h
    simp only [write, List.length_append, u64_length]
    omega

lemma states_encode_eq_ok {states : List CapabilityState} :
    Encoder.states states = ok bytes ↔
      (states.length ≤ maxCapabilityStates ∧
        ∀ state ∈ states, Bounded maxCapabilityIdBytes state.capability) ∧
          bytes = leBytes 2 states.length ++ states.flatMap CapabilityState.write := by
  simp only [Encoder.states, ite_err_eq_ok, not_lt, Outcome.bind_eq_ok,
    writeMany_eq_ok fun _ _ => CapabilityState.encode_eq_ok, Outcome.pure_eq, Outcome.ok.injEq]
  constructor
  · rintro ⟨hcount, _, ⟨hstates, rfl⟩, rfl⟩
    exact ⟨⟨hcount, hstates⟩, rfl⟩
  · rintro ⟨⟨hcount, hstates⟩, rfl⟩
    exact ⟨hcount, _, ⟨hstates, rfl⟩, rfl⟩

lemma states_decode_eq_ok {states : List CapabilityState} :
    Decoder.states input = ok (states, rest) ↔
      (states.length ≤ maxCapabilityStates ∧
        ∀ state ∈ states, Bounded maxCapabilityIdBytes state.capability) ∧
          input = leBytes 2 states.length ++ (states.flatMap CapabilityState.write ++ rest) := by
  simp only [Decoder.states, Reader.bind_eq_ok, Decoder.length_eq_ok, Decoder.fail,
    Reader.ite_eq_ok, not_lt, readMany_eq_ok fun _ _ _ => CapabilityState.decode_eq_ok]
  constructor
  · rintro ⟨count, _, ⟨-, rfl⟩, hcount, rfl, hstates, rfl⟩
    exact ⟨⟨hcount, hstates⟩, rfl⟩
  · rintro ⟨⟨hcount, hstates⟩, rfl⟩
    have hlt : states.length < 256 ^ 2 := lt_of_le_of_lt hcount (by decide)
    exact ⟨_, _, ⟨hlt, rfl⟩, hcount, rfl, hstates, rfl⟩

lemma encode_eq_ok {message : SupervisorMessage} :
    encodeSupervisor message = ok bytes ↔
      message.Valid ∧ bytes = Encoder.header message.kind ++ message.write := by
  have hsize : encodeSupervisor message = ok bytes ↔ message.Valid ∧
      bytes.length ≤ maxBrokerPacketBytes ∧
        bytes = Encoder.header message.kind ++ message.write := by
    cases message <;> simp [encodeSupervisor, Valid, kind, write, states_encode_eq_ok,
      BrokerResult.encode_eq_ok, CapabilityState.encode_eq_ok]
  rw [hsize]
  refine and_congr_right fun hvalid => and_iff_right_of_imp ?_
  rintro rfl
  exact packet_length_le hvalid

lemma decodeFields_eq_ok {tag : UInt8} {message : SupervisorMessage} :
    decodeSupervisorFields tag input = ok (message, rest) ↔
      tag = message.kind ∧ message.Valid ∧ input = message.write ++ rest := by
  constructor
  · intro h
    unfold decodeSupervisorFields at h
    split at h
    · simp only [Reader.bind_eq_ok, Decoder.u64_eq_ok, states_decode_eq_ok,
        Reader.pure_eq_ok] at h
      obtain ⟨requestId, _, rfl, generation, _, rfl, states, _, ⟨hstates, rfl⟩, rfl, rfl⟩ := h
      exact ⟨rfl, hstates, by simp [write]⟩
    · simp only [Reader.bind_eq_ok, Decoder.u64_eq_ok, BrokerResult.decode_eq_ok,
        Reader.pure_eq_ok] at h
      obtain ⟨requestId, _, rfl, result, _, ⟨hresult, rfl⟩, rfl, rfl⟩ := h
      exact ⟨rfl, hresult, by simp [write]⟩
    · simp only [Reader.bind_eq_ok, Decoder.u64_eq_ok, CapabilityState.decode_eq_ok,
        Reader.pure_eq_ok] at h
      obtain ⟨generation, _, rfl, state, _, ⟨hstate, rfl⟩, rfl, rfl⟩ := h
      exact ⟨rfl, hstate, by simp [write]⟩
    · simp only [Reader.bind_eq_ok, Decoder.u64_eq_ok,
        Decoder.code_eq_ok fun _ _ => decodeError_eq_some, Reader.pure_eq_ok] at h
      obtain ⟨generation, _, rfl, reason, _, rfl, rfl, rfl⟩ := h
      exact ⟨rfl, trivial, by simp [write]⟩
    · simp only [Reader.bind_eq_ok, Decoder.u64_eq_ok, Reader.pure_eq_ok] at h
      obtain ⟨generation, _, rfl, dropped, _, rfl, rfl, rfl⟩ := h
      exact ⟨rfl, trivial, by simp [write]⟩
    · simp only [Reader.bind_eq_ok, Decoder.u64_eq_ok, BrokerResult.decode_eq_ok,
        Reader.pure_eq_ok] at h
      obtain ⟨resourceId, _, rfl, sequence, _, rfl, result, _, ⟨hresult, rfl⟩, rfl, rfl⟩ := h
      exact ⟨rfl, hresult, by simp [write]⟩
    · cases h
  · rintro ⟨rfl, hvalid, rfl⟩
    cases message with
    | capabilities requestId generation states =>
      simpa [decodeSupervisorFields, kind, write, Valid, states_decode_eq_ok] using hvalid
    | response requestId result =>
      simpa [decodeSupervisorFields, kind, write, Valid, BrokerResult.decode_eq_ok] using hvalid
    | capabilityChanged generation state =>
      simpa [decodeSupervisorFields, kind, write, Valid, CapabilityState.decode_eq_ok] using hvalid
    | shutdown generation reason =>
      simp [decodeSupervisorFields, kind, write,
        Decoder.code_eq_ok fun _ _ => decodeError_eq_some]
    | overflow generation droppedEvents => simp [decodeSupervisorFields, kind, write]
    | resourceEvent resourceId sequence result =>
      simpa [decodeSupervisorFields, kind, write, Valid, BrokerResult.decode_eq_ok] using hvalid

lemma decode_eq_ok {message : SupervisorMessage} :
    decodeSupervisor bytes = ok message ↔
      message.Valid ∧ bytes = Encoder.header message.kind ++ message.write := by
  rw [decodeSupervisor, Decoder.run_eq_ok]
  simp only [decodeFields_eq_ok, List.append_nil]
  constructor
  · rintro ⟨_, _, rfl, rfl, hvalid, rfl⟩
    exact ⟨hvalid, rfl⟩
  · rintro ⟨hvalid, rfl⟩
    exact ⟨_, _, rfl, rfl, hvalid, rfl⟩

end SupervisorMessage

/-- The codecs of both directions are bijections between the messages they encode and the
packets they decode, and no packet belongs to both directions. -/
theorem codecs_are_bijections :
    (∀ (message : HostMessage) (packet : List UInt8),
      encodeHost message = ok packet ↔ decodeHost packet = ok message) ∧
    (∀ (message : SupervisorMessage) (packet : List UInt8),
      encodeSupervisor message = ok packet ↔ decodeSupervisor packet = ok message) ∧
    ∀ (packet : List UInt8) (host : HostMessage) (supervisor : SupervisorMessage),
      ¬ (decodeHost packet = ok host ∧ decodeSupervisor packet = ok supervisor) := by
  refine ⟨?_, ?_, ?_⟩
  · intro message packet
    rw [HostMessage.encode_eq_ok, HostMessage.decode_eq_ok]
  · intro message packet
    rw [SupervisorMessage.encode_eq_ok, SupervisorMessage.decode_eq_ok]
  · rintro packet host supervisor ⟨hhost, hsupervisor⟩
    have h := (HostMessage.decode_eq_ok.mp hhost).2.symm.trans
      (SupervisorMessage.decode_eq_ok.mp hsupervisor).2
    -- the seventh byte of the packet is the kind of both messages
    have hkind : host.kind = supervisor.kind := by
      have hbyte := congrArg (fun l => l[6]?) h
      simpa [Encoder.header, magic, leBytes] using hbyte
    have hlow : host.kind ≤ 4 := by cases host <;> simp [HostMessage.kind]
    have hhigh : 101 ≤ supervisor.kind := by cases supervisor <;> simp [SupervisorMessage.kind]
    rw [hkind] at hlow
    have hgap : (101 : UInt8) ≤ 4 := UInt8.le_trans hhigh hlow
    exact absurd hgap (by decide)

end TouchBar.Protocol
