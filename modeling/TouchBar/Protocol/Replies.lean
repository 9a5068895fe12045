import TouchBar.Protocol.Packets
import TouchBar.Schema.Messages

/-!
# Replies inside responses

A payload of the schema may have 64 KiB, but the payload of a response at most 60 KiB.
The reply to an operation is sent as it was encoded; the reply to an opened resource is
checked first, and becomes an error when it is too long.  Of the replies that are sent
unchecked, only a listing of a directory and a snapshot of facts can be too long.
-/

namespace TouchBar.Protocol

open TouchBar.Rust TouchBar.Lib TouchBar.Supervisor TouchBar.Schema Outcome

/-- How the supervisor comes to a result: by executing an operation, or by opening a
resource. -/
inductive ReplyPath where
  | executed
  | opened
deriving DecidableEq, Repr

/-- The messages that the brokers reply with. -/
def replyPath : MessageType → Option ReplyPath
  | .filesystemFileChunk => some .executed
  | .filesystemDirectoryEntries => some .executed
  | .filesystemMutationResult => some .executed
  | .clipboardValue => some .executed
  | .contextSnapshot => some .executed
  | .dbusReply => some .executed
  | .httpResponse => some .executed
  | .secretValue => some .executed
  | .commandOpened => some .opened
  | .contextSubscriptionOpened => some .opened
  | .dbusSubscriptionOpened => some .opened
  | .filesystemStreamOpened => some .opened
  | .filesystemWriteStreamOpened => some .opened
  | .httpStreamOpened => some .opened
  | .localConnectionOpened => some .opened
  | _ => none

/-- The result that is sent for an encoded reply; `ResourceManager::open` checks its length. -/
def brokerResult (t : MessageType) (payload : List UInt8) : Option BrokerResult :=
  match replyPath t with
  | some .executed => some (.success payload)
  | some .opened =>
    some (if maxInlinePayloadBytes < payload.length then .error .quotaExceeded
      else .success payload)
  | none => none

/-- If the encoded reply is sent as a success, then the response that carries it has a packet. -/
def FitsTransport (t : MessageType) (value : t.Value) : Prop :=
  ∀ payload requestId, t.encode value = ok payload →
    brokerResult t payload = some (.success payload) →
      ∃ packet, encodeSupervisor (.response requestId (.success payload)) = ok packet

/-! ## The lengths of replies -/

/-- The length of an encoded listing. -/
def listingSize (reply : FilesystemDirectoryEntries) : ℕ :=
  11 + (reply.entries.map fun entry => Text.len entry.name + 11).sum

/-- The length of an encoded value of a fact. -/
def factValueSize : ContextFactValue → ℕ
  | .text value => Text.len value + 3
  | .boolean _ => 2

/-- The length of an encoded snapshot. -/
def snapshotSize (snapshot : ContextSnapshot) : ℕ :=
  18 + (snapshot.facts.map fun fact => Text.len fact.key + 2 + factValueSize fact.value).sum

/-- Listings and snapshots that keep the limits of the schema also keep the limit of a
response. -/
def WithinInlineLimit : (t : MessageType) → t.Value → Prop
  | .filesystemDirectoryEntries, (reply : FilesystemDirectoryEntries) =>
    reply.entries.length ≤ maxDirectoryEntries →
      (∀ entry ∈ reply.entries, Text.len entry.name ≤ maxStringBytes) →
        listingSize reply ≤ maxPayloadBytes → listingSize reply ≤ maxInlinePayloadBytes
  | .contextSnapshot, (snapshot : ContextSnapshot) =>
    snapshot.generation ≠ 0 → snapshot.facts.length ≤ maxContextFacts →
      ValidFacts snapshot.facts →
        snapshotSize snapshot ≤ maxPayloadBytes → snapshotSize snapshot ≤ maxInlinePayloadBytes
  | _, _ => True

lemma length_listing (reply : FilesystemDirectoryEntries) :
    (FilesystemDirectoryEntries.magic ++ (Encoder.flag reply.truncated ::
      (Encoder.u16 reply.entries.length ++
        reply.entries.flatMap FilesystemEntry.write))).length = listingSize reply := by
  have hentry : ∀ entry : FilesystemEntry, entry.write.length = Text.len entry.name + 11 := by
    intro entry
    simp only [FilesystemEntry.write, List.length_append, List.length_cons, Encoder.length_text,
      Encoder.length_u64]
  have hmagic : FilesystemDirectoryEntries.magic.length = 8 := by decide
  simp only [List.length_append, List.length_cons, List.length_flatMap, hentry, hmagic,
    Encoder.length_u16, listingSize]
  omega

lemma length_snapshot (snapshot : ContextSnapshot) :
    (ContextSnapshot.magic ++ (none : Option UInt64).toList.flatMap Schema.Encoder.u64 ++
      Schema.Encoder.u64 snapshot.generation ++ Encoder.u16 snapshot.facts.length ++
        snapshot.facts.flatMap ContextFact.write).length = snapshotSize snapshot := by
  have hvalue : ∀ value : ContextFactValue, value.write.length = factValueSize value := by
    intro value
    cases value <;> simp [ContextFactValue.write, factValueSize]
  have hfact : ∀ fact : ContextFact,
      fact.write.length = Text.len fact.key + 2 + factValueSize fact.value := by
    intro fact
    rw [ContextFact.write, List.length_append, Encoder.length_text, hvalue]
  have hmagic : ContextSnapshot.magic.length = 8 := by decide
  simp only [List.length_append, List.length_flatMap, hfact, hmagic, Encoder.length_u16,
    Schema.Encoder.length_u64, Option.toList_none, List.map_nil, List.sum_nil, snapshotSize]
  omega

/-! ## Replies that always fit -/

section Fitting

variable {payload : List UInt8}

lemma fileChunk_length_le {chunk : FilesystemFileChunk} (h : chunk.encode = ok payload) :
    payload.length ≤ maxInlinePayloadBytes := by
  simp only [FilesystemFileChunk.encode, ite_err_eq_ok, not_lt, Schema.Encoder.finish_eq_ok] at h
  obtain ⟨hlen, -, rfl⟩ := h
  have hmagic : FilesystemFileChunk.magic.length = 8 := by decide
  simp only [List.length_append, hmagic, Schema.Encoder.length_u64, List.length_singleton,
    Encoder.length_payload]
  unfold maxFileChunkBytes at hlen
  unfold maxInlinePayloadBytes
  omega

lemma mutationResult_length_le {result : FilesystemMutationResult}
    (h : result.encode = ok payload) : payload.length ≤ maxInlinePayloadBytes := by
  simp only [FilesystemMutationResult.encode, Schema.Encoder.finish_eq_ok] at h
  obtain ⟨-, rfl⟩ := h
  have hmagic : FilesystemMutationResult.magic.length = 8 := by decide
  have hsize : (Encoder.optionalBytes Schema.Encoder.u64 result.resultingSize).length ≤ 9 := by
    cases result.resultingSize <;> simp [Encoder.optionalBytes]
  simp only [List.length_append, hmagic, Schema.Encoder.length_u64]
  unfold maxInlinePayloadBytes
  omega

lemma clipboardValue_length_le {value : ClipboardValue} (h : value.encode = ok payload) :
    payload.length ≤ maxInlinePayloadBytes := by
  simp only [ClipboardValue.encode, encodeClipboard, ite_err_eq_ok, Bool.or_eq_true,
    decide_eq_true_eq, not_or, not_lt, Outcome.bind_eq_ok, Schema.Encoder.string_eq_ok,
    Encoder.blob_eq_ok, Schema.Encoder.finish_eq_ok] at h
  obtain ⟨⟨hmime, hdata⟩, _, ⟨-, rfl⟩, _, ⟨-, rfl⟩, -, rfl⟩ := h
  have hmagic : ClipboardValue.magic.length = 8 := by decide
  simp only [List.length_append, hmagic, Encoder.length_text, leBytes_length]
  unfold maxClipboardMimeBytes at hmime
  unfold maxClipboardBytes at hdata
  unfold maxInlinePayloadBytes
  omega

lemma dbusReply_length_le {reply : DbusReply} (h : reply.encode = ok payload) :
    payload.length ≤ maxInlinePayloadBytes := by
  obtain ⟨hvalid, -, rfl⟩ := DbusReply.encode_eq_ok.mp h
  have hmagic : DbusReply.magic.length = 8 := by decide
  have hwrite : reply.write.length ≤ maxStringBytes + 9 := by
    cases reply with
    | unit => simp [DbusReply.write]
    | string value =>
      have hlen : Text.len value ≤ maxStringBytes := hvalid
      simp only [DbusReply.write, List.length_cons, Encoder.length_text]
      omega
    | i64 value =>
      simp only [DbusReply.write, List.length_cons, Encoder.length_i64]
      omega
  rw [List.length_append, hmagic]
  unfold maxStringBytes at hwrite
  unfold maxInlinePayloadBytes
  omega

/-- The body limit leaves room for the URL and both metadata fields. -/
lemma httpResponse_length_le {response : HttpResponse} (h : response.encode = ok payload) :
    payload.length ≤ maxInlinePayloadBytes := by
  simp only [HttpResponse.encode, ite_err_eq_ok, Bool.or_eq_true, decide_eq_true_eq, not_or,
    not_lt, Outcome.bind_eq_ok, Schema.Encoder.string_eq_ok, Encoder.optionalString_eq_ok,
    Schema.Encoder.finish_eq_ok] at h
  obtain ⟨⟨-, hbody⟩, _, ⟨hurl, rfl⟩, _, ⟨htype, rfl⟩, _, ⟨hetag, rfl⟩, -, rfl⟩ := h
  have hmagic : HttpResponse.magic.length = 8 := by decide
  have htype' := Encoder.length_optionalText_le htype
  have hetag' := Encoder.length_optionalText_le hetag
  simp only [List.length_append, hmagic, Encoder.length_u16, Encoder.length_text,
    Encoder.length_payload]
  unfold maxStringBytes at hurl htype' hetag'
  unfold maxHttpInlineBodyBytes at hbody
  unfold maxInlinePayloadBytes
  omega

lemma secretValue_length_le {value : SecretValue} (h : value.encode = ok payload) :
    payload.length ≤ maxInlinePayloadBytes := by
  simp only [SecretValue.encode, ite_err_eq_ok, Bool.or_eq_true, decide_eq_true_eq, not_or,
    not_lt, Outcome.bind_eq_ok, Schema.Encoder.string_eq_ok, Encoder.blob_eq_ok,
    Schema.Encoder.finish_eq_ok] at h
  obtain ⟨⟨hdata, htype⟩, _, ⟨-, rfl⟩, _, ⟨-, rfl⟩, -, rfl⟩ := h
  have hmagic : SecretValue.magic.length = 8 := by decide
  simp only [List.length_append, hmagic, Encoder.length_text, leBytes_length]
  unfold maxSecretBytes at hdata
  unfold maxSecretContentTypeBytes at htype
  unfold maxInlinePayloadBytes
  omega

end Fitting

/-! ## Which replies fit -/

lemma response_accepted_iff {payload : List UInt8} {requestId : UInt64} :
    (∃ packet, encodeSupervisor (.response requestId (.success payload)) = ok packet) ↔
      payload.length ≤ maxInlinePayloadBytes := by
  simp only [SupervisorMessage.encode_eq_ok]
  exact ⟨fun ⟨_, h, _⟩ => h, fun h => ⟨_, h, rfl⟩⟩

/-- A reply that is always short enough fits. -/
lemma fitsTransport_of_length_le {t : MessageType} {value : t.Value}
    (h : ∀ payload, t.encode value = ok payload → payload.length ≤ maxInlinePayloadBytes) :
    FitsTransport t value :=
  fun payload _ hencode _ => response_accepted_iff.mpr (h payload hencode)

/-- The reply to an opened resource is checked before it is sent. -/
lemma fitsTransport_of_opened {t : MessageType} (ht : replyPath t = some .opened)
    (value : t.Value) : FitsTransport t value := by
  intro payload requestId _ hresult
  refine response_accepted_iff.mpr ?_
  rw [brokerResult, ht] at hresult
  by_contra hlong
  simp only [not_le.mp hlong, if_true, Option.some.injEq, reduceCtorEq] at hresult

lemma fitsTransport_of_no_reply {t : MessageType} (ht : replyPath t = none)
    (value : t.Value) : FitsTransport t value := by
  intro payload requestId _ hresult
  rw [brokerResult, ht] at hresult
  cases hresult

/-- A reply that is executed fits exactly when it is short enough or has no encoding. -/
lemma fitsTransport_executed_iff {t : MessageType} (ht : replyPath t = some .executed)
    {value : t.Value} :
    FitsTransport t value ↔
      ∀ payload, t.encode value = ok payload → payload.length ≤ maxInlinePayloadBytes := by
  refine ⟨fun h payload hencode => ?_, fitsTransport_of_length_le⟩
  have hresult : brokerResult t payload = some (.success payload) := by rw [brokerResult, ht]
  exact response_accepted_iff.mp (h payload 0 hencode hresult)

lemma listing_fits_iff (reply : FilesystemDirectoryEntries) :
    FitsTransport .filesystemDirectoryEntries reply ↔
      WithinInlineLimit .filesystemDirectoryEntries reply := by
  refine (fitsTransport_executed_iff rfl).trans ?_
  change (∀ payload, reply.encode = ok payload → _) ↔ _
  simp only [FilesystemDirectoryEntries.encode_eq_ok]
  constructor
  · intro h hcount hnames hsize
    have hlength := h _ ⟨hcount, hnames, by rwa [length_listing], rfl⟩
    rwa [length_listing] at hlength
  · rintro h payload ⟨hcount, hnames, hsize, rfl⟩
    rw [length_listing] at hsize ⊢
    exact h hcount hnames hsize

lemma snapshot_fits_iff (snapshot : ContextSnapshot) :
    FitsTransport .contextSnapshot snapshot ↔ WithinInlineLimit .contextSnapshot snapshot := by
  refine (fitsTransport_executed_iff rfl).trans ?_
  change (∀ payload, snapshot.encode = ok payload → _) ↔ _
  simp only [ContextSnapshot.encode, encodeContextSnapshot_eq_ok]
  constructor
  · intro h hgeneration hcount hfacts hsize
    have hlength := h _ ⟨hgeneration, hcount, hfacts, by rwa [length_snapshot], rfl⟩
    rwa [length_snapshot] at hlength
  · rintro h payload ⟨hgeneration, hcount, hfacts, hsize, rfl⟩
    rw [length_snapshot] at hsize ⊢
    exact h hgeneration hcount hfacts hsize

/-- A reply that is sent fits into a response exactly when it is no listing and no snapshot of
between 60 and 64 KiB. -/
theorem fitsTransport_iff (t : MessageType) (value : t.Value) :
    FitsTransport t value ↔ WithinInlineLimit t value := by
  cases t with
  | filesystemDirectoryEntries => exact listing_fits_iff value
  | contextSnapshot => exact snapshot_fits_iff value
  | filesystemFileChunk =>
    exact iff_of_true (fitsTransport_of_length_le fun _ h => fileChunk_length_le h) trivial
  | filesystemMutationResult =>
    exact iff_of_true (fitsTransport_of_length_le fun _ h => mutationResult_length_le h) trivial
  | clipboardValue =>
    exact iff_of_true (fitsTransport_of_length_le fun _ h => clipboardValue_length_le h) trivial
  | dbusReply =>
    exact iff_of_true (fitsTransport_of_length_le fun _ h => dbusReply_length_le h) trivial
  | httpResponse =>
    exact iff_of_true (fitsTransport_of_length_le fun _ h => httpResponse_length_le h) trivial
  | secretValue =>
    exact iff_of_true (fitsTransport_of_length_le fun _ h => secretValue_length_le h) trivial
  | _ =>
    first
    | exact iff_of_true (fitsTransport_of_opened rfl value) trivial
    | exact iff_of_true (fitsTransport_of_no_reply rfl value) trivial

/-- A directory of 240 files with different names of 245 letters each. -/
def longNames : FilesystemDirectoryEntries where
  entries := (List.range 240).map fun i =>
    ⟨.ofList (List.replicate i 'a' ++ List.replicate (245 - i) 'b'), .regularFile, 0⟩
  truncated := false

lemma utf8Len_replicate {c : Char} (h : c.utf8Size = 1) (n : ℕ) :
    String.utf8Len (List.replicate n c) = n := by
  induction n with
  | zero => rfl
  | succ n ih => rw [List.replicate_succ, String.utf8Len_cons, ih, h]

lemma longNames_name {entry : FilesystemEntry} (h : entry ∈ longNames.entries) :
    Text.len entry.name = 245 := by
  simp only [longNames, List.mem_map, List.mem_range] at h
  obtain ⟨i, hi, rfl⟩ := h
  rw [Text.len, String.utf8ByteSize_ofList, String.utf8Len_append,
    utf8Len_replicate (by decide), utf8Len_replicate (by decide)]
  omega

lemma longNames_size : listingSize longNames = 61451 := by
  have hmap : longNames.entries.map (fun entry => Text.len entry.name + 11) =
      List.replicate 240 256 := by
    refine List.eq_replicate_iff.mpr ⟨by simp [longNames], fun n hn => ?_⟩
    obtain ⟨entry, hentry, rfl⟩ := List.mem_map.mp hn
    rw [longNames_name hentry]
  rw [listingSize, hmap, List.sum_replicate]
  rfl

/-- The listing of that directory is encoded, but the response that carries it is refused. -/
theorem longNames_listing_does_not_fit :
    (∃ payload, MessageType.encode .filesystemDirectoryEntries longNames = ok payload ∧
      brokerResult .filesystemDirectoryEntries payload = some (.success payload) ∧
        encodeSupervisor (.response 1 (.success payload)) = err .oversized) ∧
    ¬ FitsTransport .filesystemDirectoryEntries longNames := by
  have hcount : longNames.entries.length ≤ maxDirectoryEntries := by
    simp [longNames, maxDirectoryEntries]
  have hnames : ∀ entry ∈ longNames.entries, Text.len entry.name ≤ maxStringBytes := by
    intro entry hentry
    rw [longNames_name hentry]
    decide
  have hsize : listingSize longNames ≤ maxPayloadBytes := by
    rw [longNames_size]
    decide
  have hlong : ¬ listingSize longNames ≤ maxInlinePayloadBytes := by
    rw [longNames_size]
    decide
  refine ⟨?_, fun h => hlong ((listing_fits_iff longNames).mp h hcount hnames hsize)⟩
  have hpayload : longNames.encode = ok _ := FilesystemDirectoryEntries.encode_eq_ok.mpr
    ⟨hcount, hnames, by rwa [length_listing], rfl⟩
  refine ⟨_, hpayload, rfl, ?_⟩
  rw [← length_listing, not_le] at hlong
  simp only [encodeSupervisor, Encoder.result, if_pos hlong, Outcome.err_bind]

end TouchBar.Protocol
