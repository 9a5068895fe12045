import TouchBar.Rust.Path
import TouchBar.Schema.Files
import TouchBar.Supervisor.Filesystem

/-!
# Writing files

The broker of `filesystem.write.v1`: the authorization of a request and the operations that
change one file.  Every operation builds its result under a temporary name in the directory
of its target and puts it in place with one rename; it looks at what it has moved and takes
the rename back if that is not the file it had validated.
-/

namespace TouchBar.Supervisor

open TouchBar.Rust TouchBar.Lib TouchBar.Policy TouchBar.Schema Outcome

def filesystemCreateFileOperation : String := "create-file"
def filesystemReplaceFileOperation : String := "replace-file"
def filesystemAppendFileOperation : String := "append-file"
def filesystemDeleteFileOperation : String := "delete-file"
def filesystemRenameOperation : String := "rename"
def filesystemCreateDirectoryOperation : String := "create-directory"

/-- A request with the bindings of its grant. -/
structure BoundRequest extends BackendRequest where
  bindings : GrantBindings

inductive AuthorizedMutation where
  | create (write : FilesystemWriteFile)
  | replace (write : FilesystemWriteFile)
  | append (write : FilesystemWriteFile)
  | delete (path : FilesystemPath)
  | rename (rename : FilesystemRename)
  | createDirectory (path : FilesystemPath)
deriving DecidableEq, Repr

namespace FilesystemWrite

/-! ## Authorization -/

/-- `filesystem_scope`. -/
def filesystemScope (request : BoundRequest) : Outcome BrokerErrorCode FilesystemWriteScope :=
  match request.authorizedScope with
  | .filesystemWrite scope => ok scope
  | _ => err .invalidRequest

/-- `require_operation`. -/
def requireOperation (scope : FilesystemWriteScope) (operation : WriteOperation) :
    Outcome BrokerErrorCode Unit :=
  rejectIf (!scope.operations.contains operation) .outOfScope

/-- A component that a request may name. -/
def isPlainComponent : Path.Component → Bool
  | .normal name => !isReserved name
  | _ => false

/-- `validate_mount_and_path`. -/
def validateMountAndPath (request : BoundRequest) (scope : FilesystemWriteScope)
    (mount path : String) : Outcome BrokerErrorCode Unit := do
  rejectIf (mount.isEmpty || !(scope.mounts.toList.any fun candidate => candidate.label = mount) ||
    !request.bindings.filesystemMounts.containsKey mount) .outOfScope
  rejectIf (path.isEmpty || Path.isAbsolute path ||
    (Path.components path).any fun component => !isPlainComponent component) .outOfScope

/-- `decode_write`, with the checks of its target. -/
def decodeWrite (request : BoundRequest) (scope : FilesystemWriteScope)
    (operation : WriteOperation) : Outcome BrokerErrorCode FilesystemWriteFile := do
  requireOperation scope operation
  let write ← mapSchemaError (FilesystemWriteFile.decode request.payload)
  validateMountAndPath request scope write.mount write.path
  rejectIf (scope.maximumFileBytes < write.bytes.length) .quotaExceeded
  return write

/-- A request that names one path. -/
def decodePath (request : BoundRequest) (scope : FilesystemWriteScope)
    (operation : WriteOperation) : Outcome BrokerErrorCode FilesystemPath := do
  requireOperation scope operation
  let path ← mapSchemaError (FilesystemPath.decode request.payload)
  validateMountAndPath request scope path.mount path.path
  return path

def decodeRename (request : BoundRequest) (scope : FilesystemWriteScope) :
    Outcome BrokerErrorCode FilesystemRename := do
  requireOperation scope .rename
  let rename ← mapSchemaError (FilesystemRename.decode request.payload)
  validateMountAndPath request scope rename.mount rename.source
  validateMountAndPath request scope rename.mount rename.destination
  rejectIf (rename.source = rename.destination) .invalidRequest
  return rename

/-- `decode_and_authorize`. -/
def decodeAndAuthorize (request : BoundRequest) : Outcome BrokerErrorCode AuthorizedMutation := do
  rejectIf (request.capability ≠ .filesystemWriteV1) .invalidRequest
  let scope ← filesystemScope request
  if request.operation = filesystemCreateFileOperation then
    .create <$> decodeWrite request scope .create
  else if request.operation = filesystemReplaceFileOperation then
    .replace <$> decodeWrite request scope .replace
  else if request.operation = filesystemAppendFileOperation then
    .append <$> decodeWrite request scope .append
  else if request.operation = filesystemDeleteFileOperation then
    .delete <$> decodePath request scope .delete
  else if request.operation = filesystemRenameOperation then
    .rename <$> decodeRename request scope
  else if request.operation = filesystemCreateDirectoryOperation then
    .createDirectory <$> decodePath request scope .createDirectory
  else err .invalidRequest

/-! ## Targets -/

/-- The names of a path whose components are all names. -/
def pathNames (path : String) : List String :=
  (Path.components path).filterMap fun
    | .normal name => some name
    | _ => none

/-- `CString::new`. -/
def cString (name : String) : Outcome BrokerErrorCode String :=
  if name.toList.contains (Char.ofNat 0) then err .invalidRequest else ok name

/-- `open_mount` and `open_parent`: the entry that a path names. -/
def openParent (request : BoundRequest) (mount path : String) : Sys Entry := do
  let binding ← Prog.lift (okOr (request.bindings.filesystemMounts.get mount) .outOfScope)
  let root ← Sys.openDirectory fun w => w.mounts binding
  let fileName ← Prog.lift (okOr (Path.fileName path) .invalidRequest)
  let name ← Prog.lift (cString fileName)
  let parent := (pathNames path).dropLast
  let _ ← Prog.lift (cString (String.join parent))
  let directory ← Sys.openDirectory fun w => w.directories root parent
  return ⟨directory, name⟩

/-! ## Operations -/

/-- A result that stands under a temporary name, and the target it is to replace. -/
structure Staging where
  temporary : Entry
  target : Entry
  expected : Stat
deriving DecidableEq, Repr

/-- Remove the temporary file if the step fails. -/
def orUnlink {α : Type} (temporary : Entry) (step : Sys α) : Sys α :=
  Prog.onError step (Sys.unlink temporary)

/-- `create_file`. -/
def createFile (request : BoundRequest) (write : FilesystemWriteFile) :
    Sys FilesystemMutationResult := do
  let target ← openParent request write.mount write.path
  let temporary : Entry := ⟨target.directory, ← Sys.temporaryName⟩
  let file ← Sys.createExclusive temporary
  orUnlink temporary (Sys.writeAndSync file write.bytes)
  orUnlink temporary Sys.checkCancelled
  let temporaryMetadata ← orUnlink temporary (Sys.descriptorMetadata file)
  orUnlink temporary (Sys.renameNoReplace temporary target)
  let committed ← Prog.attempt (Sys.metadataAt target)
  let placed : Bool :=
    match committed with
    | ok metadata => sameFile temporaryMetadata metadata
    | _ => false
  if !placed then do
    let rollback ← Prog.attempt (Sys.renameNoReplace target temporary)
    match rollback with
    | ok () => Sys.unlink temporary
    | _ => pure ()
    Prog.fail .backendFailed
  else do
    Sys.syncDirectory target.directory
    return ⟨write.bytes.length.toUInt64, some write.bytes.length.toUInt64⟩

/-- `append_file` up to the exchange. -/
def stageAppend (request : BoundRequest) (write : FilesystemWriteFile) : Sys Staging := do
  let scope ← Prog.lift (filesystemScope request)
  let target ← openParent request write.mount write.path
  let existing ← Sys.openAtBeneath target
  let existingMetadata ← Sys.validateRegularFile existing scope.maximumFileBytes
  let initial := existingMetadata.size
  let resultingSize ← Prog.lift (okOr (U64.add initial write.bytes.length) .quotaExceeded)
  Prog.lift (rejectIf (scope.maximumFileBytes < resultingSize) .quotaExceeded)
  let temporary : Entry := ⟨target.directory, ← Sys.temporaryName⟩
  let file ← Sys.createExclusive temporary
  orUnlink temporary do
    Sys.copyExact existing file initial
    Sys.pwriteAllAt file write.bytes initial
  orUnlink temporary (Sys.fdatasync file)
  let afterCopy ← orUnlink temporary (Sys.descriptorMetadata existing)
  orUnlink temporary
    (Prog.lift (rejectIf (!samePrecommitSnapshot existingMetadata afterCopy) .backendFailed))
  orUnlink temporary Sys.checkCancelled
  return ⟨temporary, target, existingMetadata⟩

/-- `append_file`. -/
def appendFile (request : BoundRequest) (write : FilesystemWriteFile) :
    Sys FilesystemMutationResult := do
  let staging ← stageAppend request write
  Sys.exchangeAndRemove staging.temporary staging.target staging.expected true
  Sys.syncDirectory staging.target.directory
  return ⟨write.bytes.length.toUInt64,
    some (staging.expected.size + write.bytes.length).toUInt64⟩

/-- `replace_file` up to the exchange. -/
def stageReplace (request : BoundRequest) (write : FilesystemWriteFile) : Sys Staging := do
  let scope ← Prog.lift (filesystemScope request)
  let target ← openParent request write.mount write.path
  let existing ← Sys.openAtBeneath target
  let existingMetadata ← Sys.validateRegularFile existing scope.maximumFileBytes
  let temporary : Entry := ⟨target.directory, ← Sys.temporaryName⟩
  let file ← Sys.createExclusive temporary
  orUnlink temporary (Sys.writeAndSync file write.bytes)
  orUnlink temporary Sys.checkCancelled
  return ⟨temporary, target, existingMetadata⟩

/-- `replace_file`. -/
def replaceFile (request : BoundRequest) (write : FilesystemWriteFile) :
    Sys FilesystemMutationResult := do
  let staging ← stageReplace request write
  Sys.exchangeAndRemove staging.temporary staging.target staging.expected false
  Sys.syncDirectory staging.target.directory
  return ⟨write.bytes.length.toUInt64, some write.bytes.length.toUInt64⟩

/-- Look at a file that was moved, and move it back if it cannot be looked at or is not the
expected one. -/
def verifyMoved (source destination : Entry) (expected : Stat) : Sys Unit := do
  let moved ← Prog.attempt (Sys.metadataAt destination)
  match moved with
  | ok metadata =>
    if !sameFile expected metadata then do
      let _ ← Prog.attempt (Sys.renameNoReplace destination source)
      Prog.fail .backendFailed
    else pure ()
  | err error => do
    let _ ← Prog.attempt (Sys.renameNoReplace destination source)
    Prog.fail error
  | .panic => Prog.lift .panic

/-- `delete_file`. -/
def deleteFile (request : BoundRequest) (path : FilesystemPath) :
    Sys FilesystemMutationResult := do
  let scope ← Prog.lift (filesystemScope request)
  let target ← openParent request path.mount path.path
  let existing ← Sys.openAtBeneath target
  let existingMetadata ← Sys.validateRegularFile existing scope.maximumFileBytes
  Sys.checkCancelled
  let quarantine : Entry := ⟨target.directory, ← Sys.temporaryName⟩
  Sys.renameNoReplace target quarantine
  verifyMoved target quarantine existingMetadata
  Sys.unlinkChecked quarantine
  Sys.syncDirectory target.directory
  return ⟨0, none⟩

/-- `rename_file`. -/
def renameFile (request : BoundRequest) (rename : FilesystemRename) :
    Sys FilesystemMutationResult := do
  let scope ← Prog.lift (filesystemScope request)
  let source ← openParent request rename.mount rename.source
  let destination ← openParent request rename.mount rename.destination
  let existing ← Sys.openAtBeneath source
  let sourceMetadata ← Sys.validateRegularFile existing scope.maximumFileBytes
  Sys.checkCancelled
  Sys.renameNoReplace source destination
  verifyMoved source destination sourceMetadata
  Sys.syncDirectory source.directory
  Sys.syncDirectory destination.directory
  return ⟨0, none⟩

/-- `create_directory`. -/
def createDirectory (request : BoundRequest) (path : FilesystemPath) :
    Sys FilesystemMutationResult := do
  let target ← openParent request path.mount path.path
  Sys.checkCancelled
  Sys.makeDirectory target
  Sys.syncDirectory target.directory
  return ⟨0, none⟩

/-- The operation of a mutation. -/
def mutate (request : BoundRequest) : AuthorizedMutation → Sys FilesystemMutationResult
  | .create write => createFile request write
  | .replace write => replaceFile request write
  | .append write => appendFile request write
  | .delete path => deleteFile request path
  | .rename rename => renameFile request rename
  | .createDirectory path => createDirectory request path

/-- `execute` of a request that is no command of a stream, under the lock of the mutations. -/
def execute (request : BoundRequest) : Sys FilesystemMutationResult := do
  Sys.checkCancelled
  let mutation ← Prog.lift (decodeAndAuthorize request)
  let receipt ← mutate request mutation
  let _ ← Prog.lift (mapSchemaError receipt.encode)
  return receipt

end FilesystemWrite

end TouchBar.Supervisor
