import TouchBar.Supervisor.FilesystemWrite

/-!
# Streamed writes

A streamed write is a resource: it opens with a temporary file, takes the content in chunks,
and puts the file in place when it is committed.  Commands of an upload run one after the
other, under the lock of the mutations; the handle may be closed at any time.  When an upload
is dropped without having been committed, its temporary name goes.
-/

namespace TouchBar.Supervisor

open TouchBar.Rust TouchBar.Lib TouchBar.Policy TouchBar.Schema Outcome

def filesystemCreateFileStreamOperation : String := "create-file-stream"
def filesystemReplaceFileStreamOperation : String := "replace-file-stream"
def filesystemAppendFileStreamOperation : String := "append-file-stream"
def filesystemWriteStreamChunkOperation : String := "write-stream-chunk"
def filesystemWriteStreamCommitOperation : String := "write-stream-commit"

inductive StreamOperation where
  | create
  | replace
  | append
deriving DecidableEq, Repr

structure WriteUpload where
  closed : Bool
  committed : Bool
  temporaryFile : ℕ
  temporary : Entry
  target : Entry
  expectedBytes : ℕ
  receivedBytes : ℕ
  baseBytes : ℕ
  prefixCopied : Bool
  operation : StreamOperation
  expectedTarget : Option (ℕ × Stat)
  scope : FilesystemWriteScope
  filesystemMounts : BTreeMap String FilesystemMountBinding

/-- The broker with its uploads by their resource ids, in its world. -/
structure WriteBroker where
  world : World
  uploads : BTreeMap ℕ WriteUpload

inductive FilesystemWriteStreamCommandAuthorization where
  | chunk (chunk : FilesystemWriteStreamChunk) (endOffset : ℕ)
  | commit
deriving DecidableEq, Repr

namespace WriteStreams

/-- A program of the broker with its uploads. -/
abbrev Broker (α : Type) : Type := Prog WriteBroker BrokerErrorCode α

def sys {α : Type} (x : Sys α) : Broker α :=
  Prog.zoom WriteBroker.world (fun w s => { s with world := w }) x

/-! ## Authorization -/

/-- The operation that a stream opens for, and what the scope must allow. -/
def streamOperation (operation : String) :
    Outcome BrokerErrorCode (StreamOperation × WriteOperation) :=
  if operation = filesystemCreateFileStreamOperation then ok (.create, .create)
  else if operation = filesystemReplaceFileStreamOperation then ok (.replace, .replace)
  else if operation = filesystemAppendFileStreamOperation then ok (.append, .append)
  else err .invalidRequest

/-- `authorize_filesystem_write_stream_begin_request`. -/
def authorizeBegin (request : BoundRequest) :
    Outcome BrokerErrorCode (FilesystemWriteStream × StreamOperation) := do
  rejectIf (request.capability ≠ .filesystemWriteV1) .invalidRequest
  let scope ← FilesystemWrite.filesystemScope request
  let (operation, required) ← streamOperation request.operation
  FilesystemWrite.requireOperation scope required
  let stream ← mapSchemaError (FilesystemWriteStream.decode request.payload)
  FilesystemWrite.validateMountAndPath request scope stream.mount stream.path
  rejectIf (scope.maximumFileBytes < stream.expectedBytes.toNat) .quotaExceeded
  return (stream, operation)

/-- `authorize_filesystem_write_stream_command`. -/
def authorizeCommand (request : BoundRequest) (resourceId expectedBytes receivedBytes : ℕ)
    (expectedScope : FilesystemWriteScope)
    (expectedMounts : BTreeMap String FilesystemMountBinding) :
    Outcome BrokerErrorCode FilesystemWriteStreamCommandAuthorization := do
  rejectIf (request.capability ≠ .filesystemWriteV1) .invalidRequest
  let scope ← FilesystemWrite.filesystemScope request
  rejectIf (scope ≠ expectedScope || request.bindings.filesystemMounts ≠ expectedMounts)
    .outOfScope
  if request.operation = filesystemWriteStreamChunkOperation then do
    let chunk ← mapSchemaError (FilesystemWriteStreamChunk.decode request.payload)
    rejectIf (chunk.resourceId.toNat ≠ resourceId || chunk.offset.toNat ≠ receivedBytes)
      .invalidRequest
    let endOffset ← okOr (U64.add chunk.offset.toNat chunk.bytes.length) .quotaExceeded
    rejectIf (expectedBytes < endOffset) .quotaExceeded
    return .chunk chunk endOffset
  else if request.operation = filesystemWriteStreamCommitOperation then do
    let commit ← mapSchemaError (FilesystemWriteStreamCommit.decode request.payload)
    rejectIf (commit.resourceId.toNat ≠ resourceId || receivedBytes ≠ expectedBytes)
      .invalidRequest
    return .commit
  else err .invalidRequest

/-- `require_open_upload`. -/
def requireOpenUpload (upload : WriteUpload) : Outcome BrokerErrorCode Unit :=
  rejectIf (upload.closed || upload.committed) .unavailable

/-- The authorization of a command against its upload. -/
def authorizeFor (request : BoundRequest) (resourceId : ℕ) (upload : WriteUpload) :
    Outcome BrokerErrorCode FilesystemWriteStreamCommandAuthorization := do
  requireOpenUpload upload
  authorizeCommand request resourceId upload.expectedBytes upload.receivedBytes upload.scope
    upload.filesystemMounts

/-- The resource that a command names. -/
def commandResource (request : BoundRequest) : Outcome BrokerErrorCode ℕ :=
  if request.operation = filesystemWriteStreamChunkOperation then
    (fun chunk => chunk.resourceId.toNat) <$>
      mapSchemaError (FilesystemWriteStreamChunk.decode request.payload)
  else if request.operation = filesystemWriteStreamCommitOperation then
    (fun commit => commit.resourceId.toNat) <$>
      mapSchemaError (FilesystemWriteStreamCommit.decode request.payload)
  else err .invalidRequest

/-- `authorize_upload_command`, before a command is queued. -/
def authorizeUploadCommand (s : WriteBroker) (request : BoundRequest) :
    Outcome BrokerErrorCode Unit := do
  rejectIf (request.capability ≠ .filesystemWriteV1) .invalidRequest
  let resourceId ← commandResource request
  let upload ← okOr (s.uploads.get resourceId) .unavailable
  let _ ← authorizeFor request resourceId upload
  return ()

/-! ## Opening -/

/-- What the target must be like when a stream opens, and how many bytes of it are kept. -/
def openTarget (operation : StreamOperation) (target : Entry) (expectedBytes : ℕ)
    (scope : FilesystemWriteScope) : Sys (Option (ℕ × Stat) × ℕ) :=
  match operation with
  | .create => pure (none, 0)
  | .replace => do
    let descriptor ← Sys.openAtBeneath target
    let metadata ← Sys.validateRegularFile descriptor scope.maximumFileBytes
    return (some (descriptor, metadata), 0)
  | .append => do
    let descriptor ← Sys.openAtBeneath target
    let metadata ← Sys.validateRegularFile descriptor scope.maximumFileBytes
    let total ← Prog.lift (okOr (U64.add metadata.size expectedBytes) .quotaExceeded)
    Prog.lift (rejectIf (scope.maximumFileBytes < total) .quotaExceeded)
    return (some (descriptor, metadata), metadata.size)

/-- `open`. -/
def openStream (resourceId : UInt64) (request : BoundRequest) : Broker Unit := do
  let (stream, operation) ← Prog.lift (authorizeBegin request)
  let scope ← Prog.lift (FilesystemWrite.filesystemScope request)
  let target ← sys (FilesystemWrite.openParent request stream.mount stream.path)
  let (expectedTarget, baseBytes) ←
    sys (openTarget operation target stream.expectedBytes.toNat scope)
  let temporary : Entry := ⟨target.directory, ← sys Sys.temporaryName⟩
  let file ← sys (Sys.createExclusive temporary)
  let present ← Prog.get fun s => s.uploads.containsKey resourceId.toNat
  if present then do
    sys (Sys.unlink temporary)
    Prog.fail .invalidRequest
  else do
    Prog.modify fun s => { s with
      uploads := s.uploads.insert resourceId.toNat
        { closed := false
          committed := false
          temporaryFile := file
          temporary := temporary
          target := target
          expectedBytes := stream.expectedBytes.toNat
          receivedBytes := 0
          baseBytes := baseBytes
          prefixCopied := operation ≠ .append
          operation := operation
          expectedTarget := expectedTarget
          scope := scope
          filesystemMounts := request.bindings.filesystemMounts } }
    let _ ← Prog.lift (mapSchemaError (FilesystemWriteStreamOpened.encode
      ⟨resourceId, maxFileWriteStreamChunkBytes.toUInt32⟩))
    pure ()

/-! ## Commands -/

def upload (resourceId : ℕ) : Broker WriteUpload := do
  let found ← Prog.get fun s => s.uploads.get resourceId
  Prog.lift (okOr found .unavailable)

def setUpload (resourceId : ℕ) (upload : WriteUpload) : Broker Unit :=
  Prog.modify fun s => { s with uploads := s.uploads.insert resourceId upload }

/-- `prepare_stream_append`: the upload with its prefix copied. -/
def prepareStreamAppend (resourceId : ℕ) (upload : WriteUpload) : Broker WriteUpload :=
  if upload.prefixCopied then pure upload
  else if upload.operation ≠ .append then Prog.fail .internal
  else do
    let (descriptor, expected) ← Prog.lift (okOr upload.expectedTarget .internal)
    sys (Sys.copyExact descriptor upload.temporaryFile upload.baseBytes)
    let afterCopy ← sys (Sys.descriptorMetadata descriptor)
    Prog.lift (rejectIf (!samePrecommitSnapshot expected afterCopy) .backendFailed)
    let prepared := { upload with prefixCopied := true }
    setUpload resourceId prepared
    return prepared

/-- `write_upload_chunk`. -/
def writeUploadChunk (request : BoundRequest) : Broker Unit := do
  let decoded ← Prog.lift (mapSchemaError (FilesystemWriteStreamChunk.decode request.payload))
  let resourceId := decoded.resourceId.toNat
  let found ← upload resourceId
  match ← Prog.lift (authorizeFor request resourceId found) with
  | .commit => Prog.fail .invalidRequest
  | .chunk chunk endOffset => do
    let prepared ← prepareStreamAppend resourceId found
    let destinationOffset ←
      Prog.lift (okOr (U64.add prepared.baseBytes chunk.offset.toNat) .quotaExceeded)
    sys (Sys.pwriteAllAt prepared.temporaryFile chunk.bytes destinationOffset)
    setUpload resourceId { prepared with receivedBytes := endOffset }

/-- The commit of a created file: it takes its name if the name is free. -/
def commitCreated (upload : WriteUpload) (metadata : Stat) : Sys Unit := do
  Sys.renameNoReplace upload.temporary upload.target
  let committed ← Sys.metadataAt upload.target
  if !sameFile metadata committed then do
    let _ ← Prog.attempt (Sys.renameNoReplace upload.target upload.temporary)
    Prog.fail .backendFailed
  else pure ()

/-- Put the file of an upload in place. -/
def place (upload : WriteUpload) (metadata : Stat) : Sys Unit :=
  match upload.operation with
  | .create => commitCreated upload metadata
  | .replace => do
    let (_, expected) ← Prog.lift (okOr upload.expectedTarget .internal)
    Sys.exchangeAndRemove upload.temporary upload.target expected false
  | .append => do
    let (_, expected) ← Prog.lift (okOr upload.expectedTarget .internal)
    Sys.exchangeAndRemove upload.temporary upload.target expected true

/-- `commit_upload`. -/
def commitUpload (request : BoundRequest) : Broker FilesystemMutationResult := do
  let decoded ← Prog.lift (mapSchemaError (FilesystemWriteStreamCommit.decode request.payload))
  let resourceId := decoded.resourceId.toNat
  let found ← upload resourceId
  match ← Prog.lift (authorizeFor request resourceId found) with
  | .chunk _ _ => Prog.fail .invalidRequest
  | .commit => do
    sys Sys.checkCancelled
    let prepared ← prepareStreamAppend resourceId found
    sys (Sys.fdatasync prepared.temporaryFile)
    sys Sys.checkCancelled
    if ← sys Sys.readClosed then do
      setUpload resourceId { prepared with closed := true }
      Prog.fail .cancelled
    else do
      let metadata ←
        sys (Sys.validateRegularFile prepared.temporaryFile prepared.scope.maximumFileBytes)
      let resultingSize ←
        Prog.lift (okOr (U64.add prepared.baseBytes prepared.expectedBytes) .quotaExceeded)
      Prog.lift (rejectIf (metadata.size ≠ resultingSize) .backendFailed)
      sys (place prepared metadata)
      setUpload resourceId { prepared with committed := true }
      sys (Sys.syncDirectory prepared.target.directory)
      return ⟨prepared.expectedBytes.toUInt64, some resultingSize.toUInt64⟩

/-- `execute` of a command of a stream: the receipt of a commit. -/
def execute (request : BoundRequest) : Broker (Option FilesystemMutationResult) := do
  sys Sys.checkCancelled
  if request.operation = filesystemWriteStreamChunkOperation then do
    writeUploadChunk request
    return none
  else if request.operation = filesystemWriteStreamCommitOperation then do
    let receipt ← commitUpload request
    let _ ← Prog.lift (mapSchemaError receipt.encode)
    return some receipt
  else Prog.fail .invalidRequest

/-! ## Closing -/

/-- `Drop` of an upload, after its handle was closed and no command holds it. -/
def dropUpload (resourceId : ℕ) (s : WriteBroker) : WriteBroker :=
  match s.uploads.get resourceId with
  | some upload =>
    let s := { s with uploads := s.uploads.remove resourceId }
    if upload.committed then s else (sys (Sys.unlink upload.temporary) s).2
  | none => s

/-- What happens to an upload after it has been opened.  Every command brings the turns of
its world; the external process acts until the command has renamed something. -/
inductive StreamEvent where
  | command (request : BoundRequest) (turns : List CallTurn)
  | close (turns : List CallTurn)

/-- The world at the start of a command. -/
def World.start (turns : List CallTurn) (w : World) : World :=
  { w with turns := turns, renamed := false }

def withTurns (turns : List CallTurn) (s : WriteBroker) : WriteBroker :=
  { s with world := World.start turns s.world }

/-- A command against the upload, and its drop if the handle was closed meanwhile. -/
def command (resourceId : ℕ) (request : BoundRequest) (turns : List CallTurn) (s : WriteBroker) :
    Outcome BrokerErrorCode (Option FilesystemMutationResult) × WriteBroker :=
  let (outcome, s) := execute request (withTurns turns s)
  let closed := (s.uploads.get resourceId).elim false WriteUpload.closed
  (outcome, if closed then dropUpload resourceId s else s)

def step (resourceId : ℕ) (s : WriteBroker) : StreamEvent → WriteBroker
  | .command request turns => (command resourceId request turns s).2
  | .close turns => dropUpload resourceId (withTurns turns s)

end WriteStreams

end TouchBar.Supervisor
