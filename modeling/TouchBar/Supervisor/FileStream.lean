import TouchBar.Schema.Files
import TouchBar.Supervisor.Request

/-!
# Streaming a file

A worker reads an open file from an offset on and sends what it gets in chunks, up to a number
of bytes and to the size that the file had when it was opened.  The kernel may return fewer
bytes than asked for, none, or an error, whatever the size was; a read that a signal interrupts
is made again.  What the kernel, the cancellation flag and the event sink answer is free at each
turn of the loop.

The descriptor, the thread and the deadline are left out; they show only in the answers.
-/

namespace TouchBar.Supervisor

open TouchBar.Rust TouchBar.Schema Outcome

/-- What `pread` does. -/
inductive PreadAnswer where
  /-- A signal came first (`EINTR`). -/
  | interrupted
  /-- Any other error, as `os_error` reports it. -/
  | failed (error : BrokerErrorCode)
  /-- The file has these bytes to offer; the kernel returns at most as many as were asked for. -/
  | read (available : List UInt8)

/-- The answers at one turn of the loop. -/
structure StreamTurn where
  /-- `cancellation.reason()`. -/
  reason : Option BrokerErrorCode
  pread : PreadAnswer
  /-- The error of `emit_buffered`, if the turn comes to it and it fails. -/
  emit : Option BrokerErrorCode

/-- The variables of `stream_file`, with the events that were emitted and the numbers of bytes
that the reads returned. -/
structure StreamState where
  offset : ℕ
  totalBytes : ℕ
  reachedEof : Bool
  emitted : List FilesystemStreamEvent
  reads : List ℕ

/-- How `stream_file` ends; the answers may also run out while it is at work. -/
inductive StreamEnd where
  | returned (endOffset totalBytes : ℕ) (eof : Bool)
  | failed (error : BrokerErrorCode)
  | running

/-- `events.emit_buffered(event.encode().map_err(schema_error)?)?`. -/
def emitStreamEvent (event : FilesystemStreamEvent) (answer : Option BrokerErrorCode) :
    Outcome BrokerErrorCode Unit := do
  let _payload ← mapSchemaError event.encode
  match answer with
  | none => ok ()
  | some error => err error

/-- What a turn of the loop does: it goes on, breaks, or returns an error. -/
inductive TurnEnd where
  | next (s : StreamState)
  | stop (s : StreamState)
  | failed (s : StreamState) (error : BrokerErrorCode)

/-- The end of a turn, for the bytes that were read. -/
def sendChunk (totalSize : ℕ) (s : StreamState) (bytes : List UInt8)
    (answer : Option BrokerErrorCode) : TurnEnd :=
  let event := FilesystemStreamEvent.chunk (UInt64.ofNat s.offset) bytes
  match emitStreamEvent event answer with
  | ok _ =>
    let s := { s with emitted := s.emitted ++ [event] }
    match U64.add s.offset bytes.length, U64.add s.totalBytes bytes.length with
    | some offset, some totalBytes =>
      .next { s with
        offset := offset
        totalBytes := totalBytes
        reachedEof := s.reachedEof || decide (totalSize ≤ offset) }
    | _, _ => .failed s .quotaExceeded
  | err error => .failed s error
  | .panic => .failed s .internal

/-- The body of the loop. -/
def streamTurn (totalSize target : ℕ) (s : StreamState) (turn : StreamTurn) : TurnEnd :=
  match turn.reason with
  | some reason => .failed s reason
  | none =>
    let requested := min (target - s.totalBytes) maxFileStreamChunkBytes
    -- `off_t` is a signed type
    if 2 ^ 63 ≤ s.offset then .failed s .invalidRequest
    else
      match turn.pread with
      | .interrupted => .next s
      | .failed error => .failed s error
      | .read available =>
        let bytes := available.take requested
        let s := { s with reads := s.reads ++ [bytes.length] }
        if bytes.length = 0 then .stop { s with reachedEof := true }
        else sendChunk totalSize s bytes turn.emit

/-- The loop, for the answers that it gets. -/
def streamLoop (totalSize target : ℕ) :
    StreamState → List StreamTurn → StreamState × StreamEnd
  | s, [] =>
    if s.totalBytes < target then (s, .running)
    else (s, .returned s.offset s.totalBytes s.reachedEof)
  | s, turn :: turns =>
    if s.totalBytes < target then
      match streamTurn totalSize target s turn with
      | .next s => streamLoop totalSize target s turns
      | .stop s => (s, .returned s.offset s.totalBytes s.reachedEof)
      | .failed s error => (s, .failed error)
    else (s, .returned s.offset s.totalBytes s.reachedEof)

def streamTarget (read : FilesystemReadStream) (totalSize : UInt64) : ℕ :=
  min read.maximumBytes.toNat (totalSize.toNat - read.offset.toNat)

/-- `stream_file`; `opened` is the answer to the event with the metadata. -/
def streamFile (read : FilesystemReadStream) (totalSize : UInt64)
    (opened : Option BrokerErrorCode) (turns : List StreamTurn) : StreamState × StreamEnd :=
  let event := FilesystemStreamEvent.metadata read.offset totalSize
  let s : StreamState := {
    offset := read.offset.toNat
    totalBytes := 0
    reachedEof := decide (totalSize.toNat ≤ read.offset.toNat)
    emitted := []
    reads := [] }
  match emitStreamEvent event opened with
  | ok _ =>
    streamLoop totalSize.toNat (streamTarget read totalSize) { s with emitted := [event] } turns
  | err error => (s, .failed error)
  | .panic => (s, .failed .internal)

/-! ## Chunks -/

/-- The offset and the bytes of a chunk. -/
def chunkOf : FilesystemStreamEvent → Option (ℕ × List UInt8)
  | .chunk offset bytes => some (offset.toNat, bytes)
  | .metadata _ _ | .complete _ _ _ => none

/-- The chunks among some events. -/
def chunksOf (events : List FilesystemStreamEvent) : List (ℕ × List UInt8) :=
  events.filterMap chunkOf

/-- The chunks follow each other from `start` on. -/
def Contiguous : ℕ → List (ℕ × List UInt8) → Prop
  | _, [] => True
  | start, chunk :: chunks =>
    chunk.1 = start ∧ Contiguous (start + chunk.2.length) chunks

/-- The number of bytes in some chunks. -/
def chunkBytes (chunks : List (ℕ × List UInt8)) : ℕ :=
  (chunks.map fun chunk => chunk.2.length).sum

lemma chunksOf_append (events : List FilesystemStreamEvent) (offset : UInt64)
    (bytes : List UInt8) :
    chunksOf (events ++ [.chunk offset bytes]) = chunksOf events ++ [(offset.toNat, bytes)] := by
  rw [chunksOf, List.filterMap_append]
  rfl

lemma chunkBytes_append (chunks : List (ℕ × List UInt8)) (chunk : ℕ × List UInt8) :
    chunkBytes (chunks ++ [chunk]) = chunkBytes chunks + chunk.2.length := by
  simp [chunkBytes]

lemma contiguous_append {start : ℕ} {chunks : List (ℕ × List UInt8)} {chunk : ℕ × List UInt8}
    (h : Contiguous start chunks) (hchunk : chunk.1 = start + chunkBytes chunks) :
    Contiguous start (chunks ++ [chunk]) := by
  induction chunks generalizing start with
  | nil => exact ⟨hchunk, trivial⟩
  | cons first chunks ih =>
    refine ⟨h.1, ih h.2 ?_⟩
    rw [hchunk]
    simp [chunkBytes, Nat.add_assoc]

/-! ## The loop -/

/-- What has been emitted up to here: the chunks follow each other from the requested offset,
and none is empty or too large. -/
structure Emitted (start target : ℕ) (s : StreamState) : Prop where
  contiguous : Contiguous start (chunksOf s.emitted)
  sized : ∀ chunk ∈ chunksOf s.emitted,
    chunk.2 ≠ [] ∧ chunk.2.length ≤ maxFileStreamChunkBytes
  total_le : chunkBytes (chunksOf s.emitted) ≤ target

/-- At the head of the loop, the variables agree with what was emitted and read. -/
structure Counted (start totalSize target : ℕ) (s : StreamState) : Prop
    extends Emitted start target s where
  total_eq : s.totalBytes = chunkBytes (chunksOf s.emitted)
  offset_eq : s.offset = start + s.totalBytes
  offset_lt : s.offset < U64.size
  eof_iff : s.reachedEof = true ↔ totalSize ≤ s.offset ∨ 0 ∈ s.reads

/-- What a turn leaves behind. -/
def TurnEnd.Good (start totalSize target : ℕ) : TurnEnd → Prop
  | next s | stop s => Counted start totalSize target s
  | failed s _ => Emitted start target s

variable {start totalSize target : ℕ} {s : StreamState}

lemma Emitted.sendChunk (h : Counted start totalSize target s) {bytes : List UInt8}
    (hne : bytes ≠ []) (hsize : bytes.length ≤ maxFileStreamChunkBytes)
    (hroom : s.totalBytes + bytes.length ≤ target) {sent : StreamState}
    (hsent : sent.emitted = s.emitted ++ [.chunk (UInt64.ofNat s.offset) bytes]) :
    Emitted start target sent ∧
      chunkBytes (chunksOf sent.emitted) = s.totalBytes + bytes.length := by
  have hoffset : (UInt64.ofNat s.offset).toNat = s.offset := by
    rw [UInt64.toNat_ofNat']
    exact Nat.mod_eq_of_lt h.offset_lt
  have hbytes : chunkBytes (chunksOf sent.emitted) = s.totalBytes + bytes.length := by
    rw [hsent, chunksOf_append, chunkBytes_append, ← h.total_eq]
  refine ⟨⟨?_, ?_, hbytes.trans_le hroom⟩, hbytes⟩
  · rw [hsent, chunksOf_append, hoffset]
    refine contiguous_append h.contiguous ?_
    rw [← h.total_eq]
    exact h.offset_eq
  · rw [hsent, chunksOf_append]
    intro chunk hchunk
    rcases List.mem_append.mp hchunk with hold | hnew
    · exact h.sized chunk hold
    · obtain rfl := List.mem_singleton.mp hnew
      exact ⟨hne, hsize⟩

lemma good_sendChunk (h : Counted start totalSize target s) {bytes : List UInt8}
    (hne : bytes ≠ []) (hsize : bytes.length ≤ maxFileStreamChunkBytes)
    (hroom : s.totalBytes + bytes.length ≤ target) (answer : Option BrokerErrorCode) :
    (sendChunk totalSize { s with reads := s.reads ++ [bytes.length] } bytes answer).Good start
      totalSize target := by
  have hsame : Emitted start target { s with reads := s.reads ++ [bytes.length] } :=
    ⟨h.contiguous, h.sized, h.total_le⟩
  rw [Supervisor.sendChunk]
  dsimp only
  cases emitStreamEvent (.chunk (UInt64.ofNat s.offset) bytes) answer with
  | err error => exact hsame
  | panic => exact hsame
  | ok _ =>
    dsimp only
    cases hoffset : U64.add s.offset bytes.length with
    | none => exact (Emitted.sendChunk h hne hsize hroom rfl).1
    | some offset =>
      cases htotal : U64.add s.totalBytes bytes.length with
      | none => exact (Emitted.sendChunk h hne hsize hroom rfl).1
      | some totalBytes =>
        obtain ⟨hlt, rfl⟩ := U64.add_eq_some.mp hoffset
        obtain ⟨-, rfl⟩ := U64.add_eq_some.mp htotal
        obtain ⟨hemitted, hbytes⟩ := @Emitted.sendChunk start totalSize target s h bytes hne hsize
          hroom { s with
            emitted := s.emitted ++ [.chunk (UInt64.ofNat s.offset) bytes]
            reads := s.reads ++ [bytes.length]
            offset := s.offset + bytes.length
            totalBytes := s.totalBytes + bytes.length
            reachedEof := s.reachedEof || decide (totalSize ≤ s.offset + bytes.length) } rfl
        have hstart := h.offset_eq
        have heof := h.eof_iff
        have hpos : bytes.length ≠ 0 := fun hzero => hne (List.length_eq_zero_iff.mp hzero)
        refine ⟨hemitted, hbytes.symm, ?_, hlt, ?_⟩
        · show s.offset + bytes.length = start + (s.totalBytes + bytes.length)
          omega
        · show (s.reachedEof || decide (totalSize ≤ s.offset + bytes.length)) = true ↔
            totalSize ≤ s.offset + bytes.length ∨ 0 ∈ s.reads ++ [bytes.length]
          rw [Bool.or_eq_true, decide_eq_true_iff, heof, List.mem_append, List.mem_singleton]
          -- the offset only grows, and this read returned something
          constructor
          · rintro ((hsize | hzero) | hend)
            · exact .inl (by omega)
            · exact .inr (.inl hzero)
            · exact .inl hend
          · rintro (hend | hzero | hlen)
            · exact .inr hend
            · exact .inl (.inr hzero)
            · exact absurd hlen.symm hpos

/-- A turn at the head of the loop keeps the books. -/
theorem good_streamTurn (h : Counted start totalSize target s) (turn : StreamTurn) :
    (streamTurn totalSize target s turn).Good start totalSize target := by
  rw [streamTurn]
  cases turn.reason with
  | some reason => exact h.toEmitted
  | none =>
    dsimp only
    split_ifs with hsigned
    · exact h.toEmitted
    · cases turn.pread with
      | interrupted => exact h
      | failed error => exact h.toEmitted
      | read available =>
        dsimp only
        have hlength : (available.take
            (min (target - s.totalBytes) maxFileStreamChunkBytes)).length ≤
            min (target - s.totalBytes) maxFileStreamChunkBytes := List.length_take_le _ _
        generalize available.take _ = bytes at hlength ⊢
        have hle := h.total_le
        rw [← h.total_eq] at hle
        split_ifs with hempty
        · -- a read of no bytes ends the file
          refine ⟨⟨h.contiguous, h.sized, h.total_le⟩, h.total_eq, h.offset_eq, h.offset_lt, ?_⟩
          refine iff_of_true rfl (.inr ?_)
          rw [hempty]
          exact List.mem_append_right _ (List.mem_singleton_self 0)
        · refine good_sendChunk h ?_ (by omega) (by omega) turn.emit
          rintro rfl
          exact hempty rfl

/-- What is proved of the end of the loop. -/
def StreamEnd.Good (start totalSize target : ℕ) (s : StreamState) (result : StreamEnd) : Prop :=
  Emitted start target s ∧ ∀ endOffset totalBytes eof,
    result = .returned endOffset totalBytes eof →
      totalBytes = chunkBytes (chunksOf s.emitted) ∧ endOffset = start + totalBytes ∧
        (eof = true ↔ totalSize ≤ endOffset ∨ 0 ∈ s.reads)

lemma Counted.good_returned (h : Counted start totalSize target s) :
    (StreamEnd.returned s.offset s.totalBytes s.reachedEof).Good start totalSize target s := by
  refine ⟨h.toEmitted, ?_⟩
  rintro _ _ _ ⟨⟩
  exact ⟨h.total_eq, h.offset_eq, h.eof_iff⟩

theorem good_streamLoop (h : Counted start totalSize target s) (turns : List StreamTurn) :
    (streamLoop totalSize target s turns).2.Good start totalSize target
      (streamLoop totalSize target s turns).1 := by
  induction turns generalizing s with
  | nil =>
    rw [streamLoop]
    split_ifs
    · exact ⟨h.toEmitted, fun _ _ _ hreturned => by cases hreturned⟩
    · exact h.good_returned
  | cons turn turns ih =>
    have hturn := good_streamTurn h turn
    rw [streamLoop]
    split_ifs
    · cases hresult : streamTurn totalSize target s turn with
      | next s' =>
        rw [hresult] at hturn
        exact ih hturn
      | stop s' =>
        rw [hresult] at hturn
        exact Counted.good_returned hturn
      | failed s' error =>
        rw [hresult] at hturn
        exact ⟨hturn, fun _ _ _ hreturned => by cases hreturned⟩
    · exact h.good_returned

/-- Whatever the kernel, the sink and the cancellation flag answer, the chunks that were emitted
are contiguous from the requested offset, none is empty or too large, and together they stay
within the requested number of bytes and the size of the file; a return names the end of the
last one. -/
theorem stream_contiguous (read : FilesystemReadStream) (totalSize : UInt64)
    (opened : Option BrokerErrorCode) (turns : List StreamTurn) :
    let result := streamFile read totalSize opened turns
    let chunks := chunksOf result.1.emitted
    Contiguous read.offset.toNat chunks ∧
      (∀ chunk ∈ chunks, chunk.2 ≠ [] ∧ chunk.2.length ≤ maxFileStreamChunkBytes) ∧
      chunkBytes chunks ≤ min read.maximumBytes.toNat (totalSize.toNat - read.offset.toNat) ∧
      ∀ endOffset totalBytes eof, result.2 = .returned endOffset totalBytes eof →
        totalBytes = chunkBytes chunks ∧ endOffset = read.offset.toNat + totalBytes ∧
          (eof = true ↔ totalSize.toNat ≤ endOffset ∨ 0 ∈ result.1.reads) := by
  have hnone : Emitted read.offset.toNat (streamTarget read totalSize)
      ⟨read.offset.toNat, 0, decide (totalSize.toNat ≤ read.offset.toNat), [], []⟩ :=
    ⟨trivial, fun chunk hchunk => absurd hchunk List.not_mem_nil, Nat.zero_le _⟩
  have hgood : (streamFile read totalSize opened turns).2.Good read.offset.toNat totalSize.toNat
      (streamTarget read totalSize) (streamFile read totalSize opened turns).1 := by
    rw [streamFile]
    dsimp only
    cases emitStreamEvent (.metadata read.offset totalSize) opened with
    | err error => exact ⟨hnone, fun _ _ _ hreturned => by cases hreturned⟩
    | panic => exact ⟨hnone, fun _ _ _ hreturned => by cases hreturned⟩
    | ok _ =>
      have hcounted : Counted read.offset.toNat totalSize.toNat (streamTarget read totalSize)
          ⟨read.offset.toNat, 0, decide (totalSize.toNat ≤ read.offset.toNat),
            [.metadata read.offset totalSize], []⟩ := by
        refine ⟨⟨hnone.contiguous, hnone.sized, hnone.total_le⟩, rfl, rfl, read.offset.toNat_lt, ?_⟩
        simp
      exact good_streamLoop hcounted turns
  obtain ⟨hemitted, hreturned⟩ := hgood
  exact ⟨hemitted.contiguous, hemitted.sized, hemitted.total_le, hreturned⟩

/-- The worker sends the triple of a successful run as the last event of the resource: its
encoding does not fail. -/
lemma encode_complete (endOffset totalBytes : UInt64) (eof : Bool) :
    ∃ payload, (FilesystemStreamEvent.complete endOffset totalBytes eof).encode = ok payload := by
  refine ⟨_, FilesystemStreamEvent.encode_eq_ok.mpr ⟨trivial, ?_, rfl⟩⟩
  simp [FilesystemStreamEvent.write, FilesystemStreamEvent.magic, Encoder.u64, maxPayloadBytes,
    magicOf]

/-- A file of 20 000 bytes, streamed from its middle in two reads, the first one interrupted. -/
example : (streamFile ⟨"home", "notes", 10000, 15000⟩ 20000 none
    [⟨none, .interrupted, none⟩, ⟨none, .read [1, 2, 3], none⟩, ⟨none, .read [], none⟩]).2 =
      .returned 10003 3 true := by
  rfl

end TouchBar.Supervisor
