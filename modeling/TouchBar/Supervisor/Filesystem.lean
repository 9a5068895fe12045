import TouchBar.Lib.Effects
import TouchBar.Policy.Grant
import TouchBar.Supervisor.Request

/-!
# Files and system calls

The file system as the write broker meets it: directories map names to files, and an
external process may change the files that the plugin can name.  Every system call, every
look at the cancellation token and every look at the flag of an upload takes one turn.  A
turn says what the external process has done before it, what the token and the flag read,
and how the call goes where the kernel has a choice.

Beside the files the world keeps what the external process alone would have made of them.
A request is compared with this shadow.  The external process acts until the broker has
renamed something; it stays out of the reserved names and does not write to staged files.
-/

namespace TouchBar.Supervisor

open TouchBar.Rust TouchBar.Lib TouchBar.Policy Outcome

def internalNamePrefix : String := ".touchbar-"

/-- A name that the broker reserves for its temporary files. -/
def isReserved (name : String) : Bool := Text.startsWith name internalNamePrefix

/-! ## Files -/

/-- A file.  Its times stand for seconds and nanoseconds together; the kernel sets the time
of the last change.  A staged file is one that the broker has created under a temporary name. -/
structure Inode where
  regular : Bool
  links : ℕ
  bytes : List UInt8
  modified : ℕ
  changed : ℕ
  staged : Bool
deriving DecidableEq, Repr

/-- What `fstat` reports.  The number of a file stands for device and inode. -/
structure Stat where
  file : ℕ
  regular : Bool
  links : ℕ
  size : ℕ
  modified : ℕ
  changed : ℕ
deriving DecidableEq, Repr

/-- `same_file`. -/
def sameFile (left right : Stat) : Bool :=
  left.file = right.file && right.regular && right.links = 1

/-- `same_snapshot`. -/
def sameSnapshot (left right : Stat) : Bool :=
  sameFile left right && left.size = right.size && left.modified = right.modified

/-- `same_precommit_snapshot`. -/
def samePrecommitSnapshot (left right : Stat) : Bool :=
  sameSnapshot left right && left.changed = right.changed

/-- A name in a directory, which is known by its number. -/
structure Entry where
  directory : ℕ
  name : String
deriving DecidableEq, Repr

structure Files where
  names : Entry → Option ℕ
  inodes : ℕ → Inode

namespace Files

def stat (files : Files) (file : ℕ) : Stat :=
  let inode := files.inodes file
  ⟨file, inode.regular, inode.links, inode.bytes.length, inode.modified, inode.changed⟩

def setName (files : Files) (entry : Entry) (file : Option ℕ) : Files :=
  { files with names := Function.update files.names entry file }

def setInode (files : Files) (file : ℕ) (inode : Inode) : Files :=
  { files with inodes := Function.update files.inodes file inode }

/-- The kernel notes the time of a change of a file. -/
def touch (files : Files) (file clock : ℕ) : Files :=
  files.setInode file { files.inodes file with changed := clock }

/-- A name goes, and the file loses a link. -/
def dropName (files : Files) (entry : Entry) (clock : ℕ) : Files :=
  match files.names entry with
  | some file =>
    (files.setInode file
      { files.inodes file with
        links := (files.inodes file).links - 1
        changed := clock }).setName entry none
  | none => files

/-- A file that the broker has not staged gets other content. -/
def change (files : Files) (file links : ℕ) (bytes : List UInt8) (modified clock : ℕ) : Files :=
  if (files.inodes file).staged then files
  else files.setInode file
    { files.inodes file with
      links := links
      bytes := bytes
      modified := modified
      changed := clock }

end Files

/-! ## The external process -/

/-- What the external process does to a name that is not reserved. -/
inductive External where
  /-- a new file takes the name -/
  | replace (entry : Entry) (regular : Bool) (links : ℕ) (bytes : List UInt8) (modified : ℕ)
  | remove (entry : Entry)
  /-- the file behind the name is changed, unless the broker has staged it -/
  | change (entry : Entry) (links : ℕ) (bytes : List UInt8) (modified : ℕ)
deriving DecidableEq, Repr

def External.entry : External → Entry
  | .replace entry .. => entry
  | .remove entry => entry
  | .change entry .. => entry

def External.apply (action : External) (nextFile clock : ℕ) (files : Files) : Files :=
  match action with
  | .replace entry regular links bytes modified =>
    ((files.dropName entry clock).setInode nextFile
      ⟨regular, links, bytes, modified, clock, false⟩).setName entry (some nextFile)
  | .remove entry => files.dropName entry clock
  | .change entry links bytes modified =>
    match files.names entry with
    | some file => files.change file links bytes modified clock
    | none => files

/-! ## Turns -/

/-- What happens at a turn.  `failure` is the code of a system call that fails, `count` the
most bytes that a read or a write moves. -/
structure CallTurn where
  external : List External
  reason : Option BrokerErrorCode
  closed : Bool
  failure : Option BrokerErrorCode
  interrupted : Bool
  count : Option ℕ
  random : Fin 16 → UInt8

/-- A turn at which nothing happens and every call succeeds. -/
def CallTurn.quiet : CallTurn := ⟨[], none, false, none, false, none, fun _ => 0⟩

/-- The world of a request.  `mounts` and `directories` say which directory a mount leads to,
and which one the names below a directory. -/
structure World where
  files : Files
  shadow : Files
  nextFile : ℕ
  clock : ℕ
  renamed : Bool
  turns : List CallTurn
  mounts : FilesystemMountBinding → Except BrokerErrorCode ℕ
  directories : ℕ → List String → Except BrokerErrorCode ℕ

namespace World

/-- The external process acts on the files and on the shadow. -/
def interfere (w : World) (action : External) : World :=
  if isReserved action.entry.name then w
  else
    { w with
      files := action.apply w.nextFile w.clock w.files
      shadow := action.apply w.nextFile w.clock w.shadow
      nextFile := w.nextFile + 1
      clock := w.clock + 1 }

/-- The next turn, after the external process has acted. -/
def nextTurn (w : World) : CallTurn × World :=
  match w.turns with
  | [] => (.quiet, w)
  | turn :: turns =>
    let w := { w with turns := turns }
    (turn, if w.renamed then w else turn.external.foldl interfere w)

/-- The files are those of the shadow, up to the times of their last change. -/
structure Clean (w : World) : Prop where
  names : w.files.names = w.shadow.names
  inodes : ∀ entry file, w.shadow.names entry = some file →
    { w.files.inodes file with changed := 0 } = { w.shadow.inodes file with changed := 0 }

end World

/-! ## System calls -/

/-- A program of the broker. -/
abbrev Sys (α : Type) : Type := Prog World BrokerErrorCode α

namespace Sys

/-- A system call: it fails as its turn says, or does what it does. -/
def call {α : Type} (act : CallTurn → World → Outcome BrokerErrorCode α × World) : Sys α := fun w =>
  let (turn, w) := w.nextTurn
  match turn.failure with
  | some code => (err code, w)
  | none => act turn w

/-- `if let Some(reason) = cancellation.reason() { return Err(reason) }`. -/
def checkCancelled : Sys Unit := fun w =>
  let (turn, w) := w.nextTurn
  match turn.reason with
  | some code => (err code, w)
  | none => (ok (), w)

/-- Look at the flag that closing the handle of an upload sets. -/
def readClosed : Sys Bool := fun w =>
  let (turn, w) := w.nextTurn
  (ok turn.closed, w)

/-- Two hexadecimal digits. -/
def hexByte (byte : UInt8) : List Char :=
  [Nat.digitChar (byte.toNat / 16), Nat.digitChar (byte.toNat % 16)]

/-- `temporary_name`. -/
def temporaryName : Sys String := call fun turn w =>
  (ok (internalNamePrefix ++ String.ofList ((List.ofFn turn.random).flatMap hexByte) ++ ".tmp"), w)

/-- `open_at_beneath`: the descriptor is the number of the file. -/
def openAtBeneath (entry : Entry) : Sys ℕ := call fun _ w =>
  match w.files.names entry with
  | some file => (ok file, w)
  | none => (err .outOfScope, w)

/-- `create_exclusive`. -/
def createExclusive (entry : Entry) : Sys ℕ := call fun _ w =>
  match w.files.names entry with
  | some _ => (err .outOfScope, w)
  | none =>
    (ok w.nextFile,
      { w with
        files := (w.files.setInode w.nextFile ⟨true, 1, [], w.clock, w.clock, true⟩).setName entry
          (some w.nextFile)
        nextFile := w.nextFile + 1
        clock := w.clock + 1 })

/-- `descriptor_metadata`. -/
def descriptorMetadata (file : ℕ) : Sys Stat := call fun _ w => (ok (w.files.stat file), w)

/-- `metadata_at`. -/
def metadataAt (entry : Entry) : Sys Stat := call fun _ w =>
  match w.files.names entry with
  | some file => (ok (w.files.stat file), w)
  | none => (err .outOfScope, w)

/-- `rename_at` with `RENAME_NOREPLACE`. -/
def renameNoReplace (source destination : Entry) : Sys Unit := call fun _ w =>
  match w.files.names source, w.files.names destination with
  | some file, none =>
    (ok (),
      { w with
        files := ((w.files.touch file w.clock).setName source none).setName destination (some file)
        clock := w.clock + 1
        renamed := true })
  | _, _ => (err .outOfScope, w)

/-- `rename_at` with `RENAME_EXCHANGE`. -/
def renameExchange (left right : Entry) : Sys Unit := call fun _ w =>
  match w.files.names left, w.files.names right with
  | some file, some other =>
    (ok (),
      { w with
        files := (((w.files.touch file w.clock).touch other w.clock).setName left
          (some other)).setName right (some file)
        clock := w.clock + 1
        renamed := true })
  | _, _ => (err .outOfScope, w)

/-- `unlink_checked`. -/
def unlinkChecked (entry : Entry) : Sys Unit := call fun _ w =>
  match w.files.names entry with
  | some _ => (ok (), { w with files := w.files.dropName entry w.clock, clock := w.clock + 1 })
  | none => (err .outOfScope, w)

/-- `unlink`: its failure is ignored. -/
def unlink (entry : Entry) : Sys Unit := fun w => (ok (), (unlinkChecked entry w).2)

/-- `mkdirat`. -/
def makeDirectory (entry : Entry) : Sys Unit := call fun _ w =>
  match w.files.names entry with
  | some _ => (err .outOfScope, w)
  | none =>
    (ok (),
      { w with
        files := (w.files.setInode w.nextFile ⟨false, 2, [], w.clock, w.clock, false⟩).setName entry
          (some w.nextFile)
        nextFile := w.nextFile + 1
        clock := w.clock + 1 })

def fdatasync (_file : ℕ) : Sys Unit := call fun _ w => (ok (), w)

def syncDirectory (_directory : ℕ) : Sys Unit := call fun _ w => (ok (), w)

/-- A directory that opens or fails to open. -/
def openDirectory (find : World → Except BrokerErrorCode ℕ) : Sys ℕ := call fun _ w =>
  match find w with
  | .ok directory => (ok directory, w)
  | .error code => (err code, w)

/-- `pread`, or nothing where it is interrupted. -/
def pread (file length offset : ℕ) : Sys (Option (List UInt8)) := call fun turn w =>
  if turn.interrupted then (ok none, w)
  else
    let available := ((w.files.inodes file).bytes.drop offset).take length
    (ok (some (available.take (turn.count.getD length))), w)

/-- The content of a file after bytes are written at an offset; a gap is filled with zeros. -/
def overwrite (content : List UInt8) (offset : ℕ) (bytes : List UInt8) : List UInt8 :=
  (content ++ List.replicate (offset - content.length) 0).take offset ++ bytes ++
    content.drop (offset + bytes.length)

/-- The world after bytes are written to a file. -/
def written (file : ℕ) (bytes : List UInt8) (offset : ℕ) (w : World) : World :=
  let inode := w.files.inodes file
  { w with
    files := w.files.setInode file
      { inode with
        bytes := overwrite inode.bytes offset bytes
        modified := w.clock
        changed := w.clock }
    clock := w.clock + 1 }

/-- `pwrite`, or nothing where it is interrupted: how many bytes it has written. -/
def pwrite (file : ℕ) (bytes : List UInt8) (offset : ℕ) : Sys (Option ℕ) := call fun turn w =>
  if turn.interrupted then (ok none, w)
  else
    let moved := bytes.take (turn.count.getD bytes.length)
    (ok (some moved.length), written file moved offset w)

/-! ## Loops over system calls -/

/-- The fuel that a loop over so many bytes needs: every turn of it moves a byte or takes a
turn of the world. -/
def loopFuel (bytes : ℕ) (w : World) : ℕ := bytes + w.turns.length + 1

/-- One turn of `pwrite_all_at`. -/
def pwriteStep (file : ℕ) : List UInt8 × ℕ → Sys (Option (List UInt8 × ℕ))
  | (bytes, offset) =>
    if bytes.isEmpty then pure none
    else do
      checkCancelled
      match ← pwrite file bytes offset with
      | none => pure (some (bytes, offset))
      | some 0 => Prog.fail .backendFailed
      | some count => pure (some (bytes.drop count, offset + count))

/-- `pwrite_all_at`; `write_all` is the same loop from the start of a new file. -/
def pwriteAllAt (file : ℕ) (bytes : List UInt8) (offset : ℕ) : Sys Unit := fun w =>
  Prog.loop (pwriteStep file) (loopFuel bytes.length w) (bytes, offset) w

/-- `write_and_sync`. -/
def writeAndSync (file : ℕ) (bytes : List UInt8) : Sys Unit := do
  pwriteAllAt file bytes 0
  fdatasync file

def copyBufferBytes : ℕ := 64 * 1024

/-- One turn of `copy_exact`. -/
def copyStep (source destination length offset : ℕ) : Sys (Option ℕ) :=
  if length ≤ offset then pure none
  else do
    checkCancelled
    match ← pread source (min (length - offset) copyBufferBytes) offset with
    | none => pure (some offset)
    | some [] => Prog.fail .backendFailed
    | some bytes => do
      pwriteAllAt destination bytes offset
      pure (some (offset + bytes.length))

/-- `copy_exact`. -/
def copyExact (source destination length : ℕ) : Sys Unit := fun w =>
  Prog.loop (copyStep source destination length) (loopFuel length w) 0 w

/-- `validate_regular_file`. -/
def validateRegularFile (file maximumFileBytes : ℕ) : Sys Stat := do
  let metadata ← descriptorMetadata file
  if !metadata.regular || metadata.links ≠ 1 then Prog.fail .outOfScope
  else if maximumFileBytes < metadata.size then Prog.fail .quotaExceeded
  else pure metadata

/-- What `exchange_and_remove` asks of the file that it has moved away. -/
def isExpected (requireUnchangedSnapshot : Bool) (expectedTarget metadata : Stat) : Bool :=
  if requireUnchangedSnapshot then sameSnapshot expectedTarget metadata
  else sameFile expectedTarget metadata

/-- `exchange_and_remove` after the exchange. -/
def verifyExchanged (temporary target : Entry) (expectedTarget : Stat)
    (requireUnchangedSnapshot : Bool) : Sys Unit := do
  let swapped ← Prog.attempt (metadataAt temporary)
  let valid : Bool :=
    match swapped with
    | ok metadata => isExpected requireUnchangedSnapshot expectedTarget metadata
    | _ => false
  if !valid then do
    let rollback ← Prog.attempt (renameExchange temporary target)
    match swapped, rollback with
    | err error, ok () => Prog.fail error
    | _, _ => Prog.fail .backendFailed
  else unlinkChecked temporary

/-- `exchange_and_remove`. -/
def exchangeAndRemove (temporary target : Entry) (expectedTarget : Stat)
    (requireUnchangedSnapshot : Bool) : Sys Unit := do
  Prog.onError (renameExchange temporary target) (unlink temporary)
  verifyExchanged temporary target expectedTarget requireUnchangedSnapshot

end Sys

end TouchBar.Supervisor
