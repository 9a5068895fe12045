import TouchBar.Hardware.Events
import TouchBar.Lib.Codec

/-!
# Messages between the hardware daemon and the session

Every message has 32 bytes: a magic number, a version, and five numbers whose meaning
the kind decides.  Each direction has its own kinds.  Either side accepts exactly the
bytes that the other one sends for some message, and no bytes are accepted by both.
-/

namespace TouchBar.Protocol

open TouchBar.Rust TouchBar.Lib TouchBar.Hardware Outcome

def messageMagic : List UInt8 := [0x54, 0x42, 0x41, 0x52, 0x4d, 0x53, 0x47, 0x31]

def messageVersion : UInt16 := 1

def messageSize : ℕ := 32

/-- The kinds of `io::Error` that the codec makes. -/
inductive ErrorKind where
  | invalidData
  | unexpectedEof
deriving DecidableEq, Repr

/-- `io::Error`, with its text. -/
structure IpcError where
  kind : ErrorKind
  message : String
deriving DecidableEq, Repr

def invalidData (message : String) : IpcError := ⟨.invalidData, message⟩

/-! ## Messages -/

/-- `TouchEvent` as it is sent, in machine integers. -/
structure WireTouchEvent where
  phase : TouchPhase
  contactId : UInt32
  timeMs : UInt32
  xMillipixels : Int32
  yMillipixels : Int32
deriving DecidableEq

inductive SessionMessage where
  | frameReady (index : UInt16) (sequence : UInt64)
  | key (key : SystemKey) (phase : KeyPhase)
deriving DecidableEq

inductive HardwareMessage where
  | bufferReleased (index : UInt16) (sequence : UInt64)
  | touch (touch : WireTouchEvent)
  | fnChanged (pressed : Bool)
deriving DecidableEq

def SystemKey.decode (value : UInt32) : Outcome IpcError SystemKey :=
  match value.toNat with
  | 1 => ok .brightnessDown
  | 2 => ok .brightnessUp
  | 3 => ok .keyboardIlluminationDown
  | 4 => ok .keyboardIlluminationUp
  | 5 => ok .previousSong
  | 6 => ok .playPause
  | 7 => ok .nextSong
  | 8 => ok .mute
  | 9 => ok .volumeDown
  | 10 => ok .volumeUp
  | 11 => ok .microphoneMute
  | 12 => ok .search
  | 21 => ok .f1
  | 22 => ok .f2
  | 23 => ok .f3
  | 24 => ok .f4
  | 25 => ok .f5
  | 26 => ok .f6
  | 27 => ok .f7
  | 28 => ok .f8
  | 29 => ok .f9
  | 30 => ok .f10
  | 31 => ok .f11
  | 32 => ok .f12
  | _ => err (invalidData "unknown system key")

/-- The numbers of a message. -/
structure WireFields where
  kind : UInt16
  value : UInt32
  payload : UInt64
  x : Int32
  y : Int32
deriving DecidableEq

/-! ## Bytes -/

/-- `target[offset..offset + value.len()].copy_from_slice(value)`. -/
def put (target : List UInt8) (offset : ℕ) (value : List UInt8) : List UInt8 :=
  target.take offset ++ value ++ target.drop (offset + value.length)

def putU16 (target : List UInt8) (offset : ℕ) (value : UInt16) : List UInt8 :=
  put target offset (leBytes 2 value.toNat)

def putU32 (target : List UInt8) (offset : ℕ) (value : UInt32) : List UInt8 :=
  put target offset (leBytes 4 value.toNat)

def putU64 (target : List UInt8) (offset : ℕ) (value : UInt64) : List UInt8 :=
  put target offset (leBytes 8 value.toNat)

def putI32 (target : List UInt8) (offset : ℕ) (value : Int32) : List UInt8 :=
  put target offset (leBytes 4 value.toUInt32.toNat)

/-- `source[offset..offset + width]`. -/
def get (source : List UInt8) (offset width : ℕ) : List UInt8 := (source.drop offset).take width

def getU16 (source : List UInt8) (offset : ℕ) : UInt16 := .ofNat (leValue (get source offset 2))

def getU32 (source : List UInt8) (offset : ℕ) : UInt32 := .ofNat (leValue (get source offset 4))

def getU64 (source : List UInt8) (offset : ℕ) : UInt64 := .ofNat (leValue (get source offset 8))

def getI32 (source : List UInt8) (offset : ℕ) : Int32 :=
  (UInt32.ofNat (leValue (get source offset 4))).toInt32

/-- `send_fields`: the bytes given to `sendmsg`. -/
def sendFields (fields : WireFields) : List UInt8 :=
  let message := List.replicate messageSize 0
  let message := put message 0 messageMagic
  let message := putU16 message 8 messageVersion
  let message := putU16 message 10 fields.kind
  let message := putU32 message 12 fields.value
  let message := putU64 message 16 fields.payload
  let message := putI32 message 24 fields.x
  putI32 message 28 fields.y

/-- `receive_fields`, from the bytes that `recvmsg` returned. -/
def receiveFields (message : List UInt8) : Outcome IpcError WireFields :=
  if message.length = 0 then
    err ⟨.unexpectedEof, "presenter closed before sending an event"⟩
  else if message.length ≠ messageSize then err ⟨.unexpectedEof, "short ADP swapchain event"⟩
  else if get message 0 8 ≠ messageMagic then err (invalidData "invalid hardware message magic")
  else if getU16 message 8 ≠ messageVersion then
    err (invalidData "unsupported hardware message version")
  else
    ok ⟨getU16 message 10, getU32 message 12, getU64 message 16, getI32 message 24,
      getI32 message 28⟩

/-! ## From the session -/

def keyPhaseCode : KeyPhase → UInt64
  | .released => 0
  | .pressed => 1
  | .repeats => 2

def sessionFields : SessionMessage → WireFields
  | .frameReady index sequence => ⟨1, index.toUInt32, sequence, 0, 0⟩
  | .key key phase => ⟨8, .ofNat key.code, keyPhaseCode phase, 0, 0⟩

/-- The bytes of `send_session_message`. -/
def sendSessionMessage (event : SessionMessage) : List UInt8 := sendFields (sessionFields event)

/-- The phase of a key from the payload. -/
def keyPhaseOf (payload : UInt64) : Outcome IpcError KeyPhase :=
  if payload = 0 then ok .released
  else if payload = 1 then ok .pressed
  else if payload = 2 then ok .repeats
  else panic

def sessionOfFields (fields : WireFields) : Outcome IpcError SessionMessage :=
  if fields.x ≠ 0 || fields.y ≠ 0 then
    err (invalidData "session message has nonzero reserved fields")
  else if fields.kind = 1 then
    if fields.value.toNat ≤ 0xffff then ok (.frameReady fields.value.toUInt16 fields.payload)
    else err (invalidData "hardware buffer index is out of range")
  else if fields.kind = 8 then
    if fields.payload ≤ 2 then do
      let key ← SystemKey.decode fields.value
      let phase ← keyPhaseOf fields.payload
      return .key key phase
    else err (invalidData "unknown system key phase")
  else err (invalidData "message is not valid from a user session")

def receiveSessionMessage (message : List UInt8) : Outcome IpcError SessionMessage := do
  sessionOfFields (← receiveFields message)

/-! ## From the hardware daemon -/

def touchPhaseKind : TouchPhase → UInt16
  | .down => 3
  | .motion => 4
  | .up => 5
  | .cancel => 6

def hardwareFields : HardwareMessage → WireFields
  | .bufferReleased index sequence => ⟨2, index.toUInt32, sequence, 0, 0⟩
  | .touch touch =>
    ⟨touchPhaseKind touch.phase, touch.contactId, touch.timeMs.toUInt64, touch.xMillipixels,
      touch.yMillipixels⟩
  | .fnChanged pressed => ⟨7, if pressed then 1 else 0, 0, 0, 0⟩

/-- The bytes of `send_hardware_message`. -/
def sendHardwareMessage (event : HardwareMessage) : List UInt8 :=
  sendFields (hardwareFields event)

/-- The phase of a touch from its kind. -/
def touchPhaseOf (kind : UInt16) : Outcome IpcError TouchPhase :=
  if kind = 3 then ok .down
  else if kind = 4 then ok .motion
  else if kind = 5 then ok .up
  else if kind = 6 then ok .cancel
  else panic

def hardwareOfFields (fields : WireFields) : Outcome IpcError HardwareMessage :=
  if fields.kind = 2 then
    if fields.value.toNat ≤ 0xffff && fields.x = 0 && fields.y = 0 then
      ok (.bufferReleased fields.value.toUInt16 fields.payload)
    else err (invalidData "invalid hardware buffer release")
  else if 3 ≤ fields.kind && fields.kind ≤ 6 then
    if 0xffffffff < fields.payload.toNat then
      err (invalidData "Touch Bar event time is out of range")
    else do
      let phase ← touchPhaseOf fields.kind
      return .touch ⟨phase, fields.value, fields.payload.toUInt32, fields.x, fields.y⟩
  else if fields.kind = 7 then
    if fields.value ≤ 1 && fields.payload = 0 && fields.x = 0 && fields.y = 0 then
      ok (.fnChanged (fields.value = 1))
    else err (invalidData "invalid Fn state message")
  else err (invalidData "message is not valid from the hardware daemon")

def receiveHardwareMessage (message : List UInt8) : Outcome IpcError HardwareMessage := do
  hardwareOfFields (← receiveFields message)

/-! ## The layout -/

variable {message : List UInt8} {fields : WireFields}

/-- The numbers stand one after the other, without gaps. -/
lemma sendFields_eq (fields : WireFields) :
    sendFields fields = messageMagic ++ leBytes 2 messageVersion.toNat ++
      leBytes 2 fields.kind.toNat ++ leBytes 4 fields.value.toNat ++
      leBytes 8 fields.payload.toNat ++ leBytes 4 fields.x.toUInt32.toNat ++
      leBytes 4 fields.y.toUInt32.toNat := rfl

lemma get_append_get (source : List UInt8) (offset width : ℕ) :
    get source offset width ++ source.drop (offset + width) = source.drop offset := by
  rw [get, ← List.drop_drop, List.take_append_drop]

/-- A message falls into the magic number, the version and the five numbers. -/
lemma message_eq_parts (h : message.length = messageSize) :
    message = get message 0 8 ++ get message 8 2 ++ get message 10 2 ++ get message 12 4 ++
      get message 16 8 ++ get message 24 4 ++ get message 28 4 := by
  have hend : message.drop 32 = [] := List.drop_eq_nil_of_le h.le
  calc message
    _ = message.drop 0 := rfl
    _ = _ := by
      rw [← get_append_get message 0 8, ← get_append_get message 8 2,
        ← get_append_get message 10 2, ← get_append_get message 12 4,
        ← get_append_get message 16 8, ← get_append_get message 24 4,
        ← get_append_get message 28 4, hend]
      simp only [List.append_assoc, List.append_nil]

lemma get_length (h : message.length = messageSize) {offset width : ℕ}
    (hle : offset + width ≤ messageSize) : (get message offset width).length = width := by
  rw [get, List.length_take, List.length_drop]
  omega

section Numbers

variable {offset : ℕ} (h : message.length = messageSize)

include h

lemma leBytes_get {width : ℕ} (hle : offset + width ≤ messageSize) :
    leBytes width (leValue (get message offset width)) = get message offset width := by
  have hbytes := leBytes_leValue (get message offset width)
  rwa [get_length h hle] at hbytes

lemma leValue_get_lt {width : ℕ} (hle : offset + width ≤ messageSize) :
    leValue (get message offset width) < 256 ^ width := by
  have hlt := leValue_lt (get message offset width)
  rwa [get_length h hle] at hlt

lemma leBytes_getU16 (hle : offset + 2 ≤ messageSize) :
    leBytes 2 (getU16 message offset).toNat = get message offset 2 := by
  rw [getU16, UInt16.toNat_ofNat_of_lt' (leValue_get_lt h hle), leBytes_get h hle]

lemma leBytes_getU32 (hle : offset + 4 ≤ messageSize) :
    leBytes 4 (getU32 message offset).toNat = get message offset 4 := by
  rw [getU32, UInt32.toNat_ofNat_of_lt' (leValue_get_lt h hle), leBytes_get h hle]

lemma leBytes_getU64 (hle : offset + 8 ≤ messageSize) :
    leBytes 8 (getU64 message offset).toNat = get message offset 8 := by
  rw [getU64, UInt64.toNat_ofNat_of_lt' (leValue_get_lt h hle), leBytes_get h hle]

lemma leBytes_getI32 (hle : offset + 4 ≤ messageSize) :
    leBytes 4 (getI32 message offset).toUInt32.toNat = get message offset 4 := by
  rw [getI32, UInt32.toUInt32_toInt32, UInt32.toNat_ofNat_of_lt' (leValue_get_lt h hle),
    leBytes_get h hle]

end Numbers

/-- The fields are read from exactly the bytes that are sent for them. -/
lemma receiveFields_eq_ok : receiveFields message = ok fields ↔ message = sendFields fields := by
  constructor
  · intro h
    rw [receiveFields, ite_err_eq_ok, ite_err_eq_ok, ite_err_eq_ok, ite_err_eq_ok] at h
    obtain ⟨-, hlength, hmagic, hversion, hfields⟩ := h
    rw [not_not] at hlength hmagic hversion
    obtain rfl := Outcome.ok.inj hfields
    rw [sendFields_eq, ← hversion, ← hmagic, leBytes_getU16 hlength (by decide),
      leBytes_getU16 hlength (by decide), leBytes_getU32 hlength (by decide),
      leBytes_getU64 hlength (by decide), leBytes_getI32 hlength (by decide),
      leBytes_getI32 hlength (by decide)]
    exact message_eq_parts hlength
  · rintro rfl
    have hkind : getU16 (sendFields fields) 10 = fields.kind := by
      show UInt16.ofNat (leValue (leBytes 2 fields.kind.toNat)) = _
      rw [leValue_leBytes fields.kind.toNat_lt, UInt16.ofNat_toNat]
    have hvalue : getU32 (sendFields fields) 12 = fields.value := by
      show UInt32.ofNat (leValue (leBytes 4 fields.value.toNat)) = _
      rw [leValue_leBytes fields.value.toNat_lt, UInt32.ofNat_toNat]
    have hpayload : getU64 (sendFields fields) 16 = fields.payload := by
      show UInt64.ofNat (leValue (leBytes 8 fields.payload.toNat)) = _
      rw [leValue_leBytes fields.payload.toNat_lt, UInt64.ofNat_toNat]
    have hx : getI32 (sendFields fields) 24 = fields.x := by
      show (UInt32.ofNat (leValue (leBytes 4 fields.x.toUInt32.toNat))).toInt32 = _
      rw [leValue_leBytes fields.x.toUInt32.toNat_lt, UInt32.ofNat_toNat, Int32.toInt32_toUInt32]
    have hy : getI32 (sendFields fields) 28 = fields.y := by
      show (UInt32.ofNat (leValue (leBytes 4 fields.y.toUInt32.toNat))).toInt32 = _
      rw [leValue_leBytes fields.y.toUInt32.toNat_lt, UInt32.ofNat_toNat, Int32.toInt32_toUInt32]
    rw [receiveFields, hkind, hvalue, hpayload, hx, hy]
    rfl

/-! ## Each side accepts what the other one sends -/

lemma SystemKey.decode_eq_ok {value : UInt32} {key : SystemKey} :
    SystemKey.decode value = ok key ↔ value = .ofNat key.code := by
  have hback : ∀ n < 33, value.toNat = n ↔ value = .ofNat n := by
    intro n hn
    rw [← UInt32.toNat_inj, UInt32.toNat_ofNat_of_lt' (lt_trans hn (by decide))]
  rw [← hback key.code (by cases key <;> decide), SystemKey.decode]
  constructor
  · intro h
    split at h <;> cases h <;> assumption
  · intro h
    rw [h]
    cases key <;> rfl

lemma toUInt16_toUInt32 {value : UInt32} (h : value.toNat ≤ 0xffff) :
    value.toUInt16.toUInt32 = value := by
  rw [← UInt32.toNat_inj, UInt16.toNat_toUInt32, UInt32.toNat_toUInt16]
  omega

lemma keyPhaseOf_eq_ok {payload : UInt64} {phase : KeyPhase} :
    keyPhaseOf payload = ok phase ↔ payload = keyPhaseCode phase := by
  constructor
  · intro h
    rw [keyPhaseOf] at h
    split_ifs at h <;> cases h <;> assumption
  · rintro rfl
    cases phase <;> rfl

lemma touchPhaseOf_eq_ok {kind : UInt16} {phase : TouchPhase} :
    touchPhaseOf kind = ok phase ↔ kind = touchPhaseKind phase := by
  constructor
  · intro h
    rw [touchPhaseOf] at h
    split_ifs at h <;> cases h <;> assumption
  · rintro rfl
    cases phase <;> rfl

lemma sessionOfFields_eq_ok {event : SessionMessage} :
    sessionOfFields fields = ok event ↔ fields = sessionFields event := by
  obtain ⟨kind, value, payload, x, y⟩ := fields
  constructor
  · intro h
    rw [sessionOfFields, ite_err_eq_ok] at h
    obtain ⟨hreserved, h⟩ := h
    simp only [Bool.or_eq_true, decide_eq_true_eq, not_or, not_not] at hreserved h
    obtain ⟨rfl, rfl⟩ := hreserved
    split_ifs at h with hframe hindex hkey hphase
    · obtain rfl := Outcome.ok.inj h
      rw [sessionFields, toUInt16_toUInt32 hindex, hframe]
    · obtain ⟨key, hdecode, h⟩ := Outcome.bind_eq_ok.mp h
      obtain ⟨phase, hcode, h⟩ := Outcome.bind_eq_ok.mp h
      obtain rfl := Outcome.ok.inj h
      rw [sessionFields, hkey, SystemKey.decode_eq_ok.mp hdecode, keyPhaseOf_eq_ok.mp hcode]
  · rintro h
    cases event with
    | frameReady index sequence =>
      cases h
      have hindex : index.toNat ≤ 0xffff := Nat.le_of_lt_succ index.toNat_lt
      simp [sessionOfFields, hindex]
    | key key phase =>
      cases h
      have hdecode := SystemKey.decode_eq_ok.mpr (rfl : UInt32.ofNat key.code = _)
      have hcode := keyPhaseOf_eq_ok.mpr (rfl : keyPhaseCode phase = _)
      have hle : keyPhaseCode phase ≤ 2 := by cases phase <;> decide
      simp [sessionOfFields, hdecode, hcode, hle]

lemma toUInt32_toUInt64 {payload : UInt64} (h : payload.toNat ≤ 0xffffffff) :
    payload.toUInt32.toUInt64 = payload := by
  rw [← UInt64.toNat_inj, UInt32.toNat_toUInt64, UInt64.toNat_toUInt32]
  omega

lemma hardwareOfFields_eq_ok {event : HardwareMessage} :
    hardwareOfFields fields = ok event ↔ fields = hardwareFields event := by
  obtain ⟨kind, value, payload, x, y⟩ := fields
  constructor
  · intro h
    rw [hardwareOfFields] at h
    split_ifs at h with hrelease hfields htouch htime hfn hfields
    · simp only [Bool.and_eq_true, decide_eq_true_eq] at hfields
      obtain ⟨⟨hindex, rfl⟩, rfl⟩ := hfields
      obtain rfl := Outcome.ok.inj h
      rw [hardwareFields, toUInt16_toUInt32 hindex, show kind = 2 from hrelease]
    · obtain ⟨phase, hphase, h⟩ := Outcome.bind_eq_ok.mp h
      obtain rfl := Outcome.ok.inj h
      rw [hardwareFields, toUInt32_toUInt64 (not_lt.mp htime), ← touchPhaseOf_eq_ok.mp hphase]
    · simp only [Bool.and_eq_true, decide_eq_true_eq] at hfields
      obtain ⟨⟨⟨hvalue, rfl⟩, rfl⟩, rfl⟩ := hfields
      obtain rfl := Outcome.ok.inj h
      -- a value of at most one is the code of whether the key is pressed
      have hcode : value = if value = 1 then 1 else 0 := by
        split_ifs with hone
        · exact hone
        · have hone' : value.toNat ≠ 1 := fun heq => hone (UInt32.toNat_inj.mp heq)
          have hle : value.toNat ≤ 1 := UInt32.le_iff_toNat_le.mp hvalue
          exact UInt32.toNat_inj.mp (show value.toNat = 0 by omega)
      rw [hardwareFields, show kind = 7 from hfn]
      simpa using hcode
  · rintro h
    cases event with
    | bufferReleased index sequence =>
      cases h
      have hindex : index.toNat ≤ 0xffff := Nat.le_of_lt_succ index.toNat_lt
      simp [hardwareOfFields, hindex]
    | touch touch =>
      cases h
      have hphase := touchPhaseOf_eq_ok.mpr (rfl : touchPhaseKind touch.phase = _)
      have hkind : touchPhaseKind touch.phase ≠ 2 ∧ 3 ≤ touchPhaseKind touch.phase ∧
          touchPhaseKind touch.phase ≤ 6 := by cases touch.phase <;> decide
      have htime : touch.timeMs.toNat ≤ 0xffffffff := Nat.le_of_lt_succ touch.timeMs.toNat_lt
      simp [hardwareOfFields, hphase, hkind, htime]
    | fnChanged pressed =>
      cases h
      cases pressed <;> rfl

/-- The kind decides the direction. -/
lemma sessionFields_ne_hardwareFields {event : SessionMessage} {event' : HardwareMessage} :
    sessionFields event ≠ hardwareFields event' := by
  intro h
  have hkind := congrArg WireFields.kind h
  cases event with
  | frameReady index sequence =>
    cases event' with
    | bufferReleased index sequence => simp [sessionFields, hardwareFields] at hkind
    | touch touch =>
      have hne : 1 ≠ touchPhaseKind touch.phase := by cases touch.phase <;> decide
      exact hne hkind
    | fnChanged pressed => simp [sessionFields, hardwareFields] at hkind
  | key key phase =>
    cases event' with
    | bufferReleased index sequence => simp [sessionFields, hardwareFields] at hkind
    | touch touch =>
      have hne : 8 ≠ touchPhaseKind touch.phase := by cases touch.phase <;> decide
      exact hne hkind
    | fnChanged pressed => simp [sessionFields, hardwareFields] at hkind

/-- Each side accepts exactly the bytes that the other sends, so that decoding undoes encoding
and encoding undoes decoding; and no bytes are accepted by both. -/
theorem receive_iff_send (message : List UInt8) :
    (∀ event, receiveSessionMessage message = ok event ↔ message = sendSessionMessage event) ∧
    (∀ event, receiveHardwareMessage message = ok event ↔
      message = sendHardwareMessage event) ∧
    ∀ event event', ¬ (receiveSessionMessage message = ok event ∧
      receiveHardwareMessage message = ok event') := by
  have hsession (event : SessionMessage) :
      receiveSessionMessage message = ok event ↔ message = sendSessionMessage event := by
    simp only [receiveSessionMessage, bind_eq_ok, receiveFields_eq_ok, sessionOfFields_eq_ok,
      sendSessionMessage, exists_eq_right]
  have hhardware (event : HardwareMessage) :
      receiveHardwareMessage message = ok event ↔ message = sendHardwareMessage event := by
    simp only [receiveHardwareMessage, bind_eq_ok, receiveFields_eq_ok, hardwareOfFields_eq_ok,
      sendHardwareMessage, exists_eq_right]
  refine ⟨hsession, hhardware, ?_⟩
  rintro event event' ⟨h, h'⟩
  have hfields := receiveFields_eq_ok.mpr ((hsession event).mp h)
  have hfields' := receiveFields_eq_ok.mpr ((hhardware event').mp h')
  rw [hfields] at hfields'
  exact sessionFields_ne_hardwareFields (Outcome.ok.inj hfields')

end TouchBar.Protocol
