import TouchBar.Lib.Runs
import TouchBar.Rust.Outcome
import TouchBar.Rust.Text

/-!
# The audit file

The audit log on disk is an active file and numbered archives, with one record on each
line.  A process appends under a lock: it reads the last sequence number back from the
files, rotates them when the active file is too long or too old, and writes one line.
The lock makes appends of all processes follow one another, so that a run is a list of
them.

A file is a slot of the disk: slot 0 is the active file and slot `i` the archive `.i`.
What a call does to the disk is a list of file operations, which succeed.
-/

namespace TouchBar.Supervisor.Audit

open TouchBar.Rust TouchBar.Lib Outcome

structure AuditFileLimits where
  maximumBytes : ℕ
  maximumAge : ℕ
  maximumArchives : ℕ
deriving DecidableEq, Repr

inductive AuditFileError where
  | io
  | encode
  | invalid (message : String)
deriving DecidableEq, Repr

/-- An audit record: its number, and what else it says. -/
structure AuditRecord (δ : Type) where
  sequence : UInt64
  content : δ
deriving DecidableEq

/-- How a record is written as a line of JSON and read back. -/
structure RecordFormat (δ : Type) where
  encode : AuditRecord δ → List UInt8
  decode : List UInt8 → Outcome AuditFileError (AuditRecord δ)

/-- What `serde_json` says about it: records are read back, an object ends with its closing
brace, control characters are escaped, and a part of an object or two of them in a row are
errors.  A line that is cut within a character is not UTF-8, which is an error of the reader. -/
structure RecordFormat.Lawful {δ : Type} (format : RecordFormat δ) : Prop where
  decode_encode : ∀ record, format.decode (format.encode record) = ok record
  newline_free : ∀ record, 10 ∉ format.encode record
  brace : ∀ record, (format.encode record).getLast? = some 0x7d
  truncated : ∀ record part, part <+: format.encode record → part ≠ [] →
    part ≠ format.encode record → format.decode part = err .io ∨ format.decode part = err .encode
  joined : ∀ record next, format.decode (format.encode record ++ format.encode next) = err .encode

/-! ## Reading -/

/-- A line without the carriage return before its end. -/
def stripReturn (line : List UInt8) : List UInt8 :=
  if line.getLast? = some 13 then line.dropLast else line

/-- `BufRead::lines`, with the bytes of the line so far. -/
def linesFrom (line : List UInt8) : List UInt8 → List (List UInt8)
  | [] => if line.isEmpty then [] else [line]
  | byte :: bytes =>
    if byte = 10 then stripReturn line :: linesFrom [] bytes else linesFrom (line ++ [byte]) bytes

def lines (bytes : List UInt8) : List (List UInt8) := linesFrom [] bytes

section

variable {δ : Type} (format : RecordFormat δ)

/-- The loop of `read_last_sequence`. -/
def readLines (path : String) : Option UInt64 → List (List UInt8) →
    Outcome AuditFileError (Option UInt64)
  | previous, [] => ok previous
  | previous, line :: lines =>
    if line.isEmpty then err (.invalid (path ++ " contains an empty audit record"))
    else do
      let record ← format.decode line
      if previous.any (record.sequence ≤ ·) then
        err (.invalid (path ++ " has a non-monotonic audit sequence"))
      else readLines path (some record.sequence) lines

def readLastSequence (path : String) (file : List UInt8) :
    Outcome AuditFileError (Option UInt64) :=
  readLines format path none (lines file)

/-! ## Files -/

/-- The bytes of each file that exists. -/
abbrev Disk : Type := ℕ → Option (List UInt8)

/-- What a call does to the files. -/
inductive FileOp where
  /-- Open the active file, which makes it if it is missing. -/
  | create
  | remove (index : ℕ)
  /-- Move a file, if it is there, to the next slot. -/
  | rename (index : ℕ)
  /-- Append to the active file. -/
  | write (bytes : List UInt8)
deriving DecidableEq, Repr

def FileOp.apply (disk : Disk) : FileOp → Disk
  | create => if (disk 0).isNone then Function.update disk 0 (some []) else disk
  | remove index => Function.update disk index none
  | rename index =>
    match disk index with
    | some file => Function.update (Function.update disk (index + 1) (some file)) index none
    | none => disk
  | write bytes => Function.update disk 0 (some ((disk 0).getD [] ++ bytes))

def applyAll (disk : Disk) (ops : List FileOp) : Disk := ops.foldl FileOp.apply disk

variable (limits : AuditFileLimits) (path : String)

def rotatedPath (index : ℕ) : String := path ++ "." ++ toString index

/-- The loop of `last_durable_sequence` over the archives. -/
def lastArchivedSequence (disk : Disk) : List ℕ → Outcome AuditFileError (Option UInt64)
  | [] => ok none
  | index :: indices =>
    match disk index with
    | none => lastArchivedSequence disk indices
    | some archive => do
      match ← readLastSequence format (rotatedPath path index) archive with
      | some sequence => ok (some sequence)
      | none => lastArchivedSequence disk indices

def lastDurableSequence (disk : Disk) : Outcome AuditFileError (Option UInt64) := do
  match ← readLastSequence format path ((disk 0).getD []) with
  | some sequence => ok (some sequence)
  | none => lastArchivedSequence format path disk (List.range' 1 limits.maximumArchives)

/-- `rotate`.  Moving the active file is the last of the moves. -/
def rotate : List FileOp :=
  if limits.maximumArchives = 0 then [.remove 0]
  else
    .remove limits.maximumArchives ::
      ((List.range' 1 (limits.maximumArchives - 1)).reverse.map .rename ++ [.rename 0])

/-- `should_rotate`.  The age is missing where the clock or the file system has none. -/
def shouldRotate (length appendBytes : ℕ) (age : Option ℕ) : Bool :=
  let tooLarge :=
    match U64.add length appendBytes with
    | some total => decide (limits.maximumBytes < total)
    | none => true
  let tooOld := age.any (limits.maximumAge ≤ ·)
  decide (0 < length) && (tooLarge || tooOld)

/-! ## Appending -/

/-- The record with the sequence number after the last one on disk. -/
def stamp (disk : Disk) (record : AuditRecord δ) : Outcome AuditFileError (AuditRecord δ) := do
  match ← lastDurableSequence format limits path disk with
  | some sequence =>
    if sequence.toNat + 1 < UInt64.size then ok { record with sequence := sequence + 1 }
    else err (.invalid "durable audit sequence exhausted")
  | none => ok { record with sequence := max record.sequence 1 }

def encodeLine (record : AuditRecord δ) : List UInt8 := format.encode record ++ [10]

/-- What `append` does once it has opened the active file. -/
def plan (disk : Disk) (record : AuditRecord δ) (age : Option ℕ) :
    Outcome AuditFileError (AuditRecord δ × List FileOp) := do
  let record ← stamp format limits path disk record
  let encoded := encodeLine format record
  if limits.maximumBytes < encoded.length then
    err (.invalid "one audit record exceeds the file size limit")
  else if shouldRotate limits ((disk 0).getD []).length encoded.length age then
    ok (record, rotate limits ++ [.create, .write encoded])
  else ok (record, [.write encoded])

/-- The calls of the processes that share the file. -/
inductive AuditCall (δ : Type) where
  | new
  | append (record : AuditRecord δ) (age : Option ℕ)

/-- The files, all records that were appended, as they were written, and how often a rotation
was begun. -/
structure AuditSink (δ : Type) where
  disk : Disk
  appended : List (AuditRecord δ)
  rotations : ℕ

/-- The file operations of a call. -/
def operations (disk : Disk) : AuditCall δ → List FileOp
  | .new => [.create]
  | .append record age =>
    .create ::
      match plan format limits path (FileOp.create.apply disk) record age with
      | ok (_, ops) => ops
      | _ => []

/-- The record that a call appends, if it succeeds. -/
def appendedBy (disk : Disk) : AuditCall δ → List (AuditRecord δ)
  | .new => []
  | .append record age =>
    match plan format limits path (FileOp.create.apply disk) record age with
    | ok (record, _) => [record]
    | _ => []

def isRemove : FileOp → Bool
  | .remove _ => true
  | _ => false

def AuditSink.step (sink : AuditSink δ) (call : AuditCall δ) : AuditSink δ where
  disk := applyAll sink.disk (operations format limits path sink.disk call)
  appended := sink.appended ++ appendedBy format limits path sink.disk call
  rotations := sink.rotations + (operations format limits path sink.disk call).countP isRemove

/-- `AuditFile::new` where no file exists yet. -/
def AuditSink.new : Outcome AuditFileError (AuditSink δ) :=
  if limits.maximumBytes = 0 || limits.maximumAge = 0 then
    err (.invalid "size and age limits must be greater than zero")
  else if 32 < limits.maximumArchives then
    err (.invalid "audit archive count exceeds the limit of 32")
  else ok ⟨FileOp.create.apply fun _ => none, [], 0⟩

end

/-! ## One content

The records that differ in nothing but their numbers, written as `serde_json` writes them. -/

/-- The digits of a number with at most `fuel + 1` of them. -/
def decimal : ℕ → ℕ → List UInt8
  | 0, n => [(48 + n % 10).toUInt8]
  | fuel + 1, n =>
    if n < 10 then [(48 + n).toUInt8] else decimal fuel (n / 10) ++ [(48 + n % 10).toUInt8]

def decimalValue (digits : List UInt8) : ℕ := digits.foldl (fun n d => n * 10 + (d.toNat - 48)) 0

def isDigitByte (byte : UInt8) : Bool := 48 ≤ byte && byte ≤ 57

def sentBefore : List UInt8 := Text.asBytes "\x7b\"sequence\":"

def sentAfter : List UInt8 :=
  Text.asBytes (",\"wall_clock_unix_millis\":10,\"source\":\"github:alice/media\"," ++
    "\"version\":\"1.0.0\",\"artifact_digest\":\"sha256:00\",\"instance_id\":7," ++
    "\"capability\":\"notification.send.v1\",\"operation\":\"send\"," ++
    "\"activation\":\"none\",\"decision\":\"allowed\",\"result\":\"success\"," ++
    "\"duration_micros\":3,\"request_bytes\":40,\"response_bytes\":0," ++
    "\"resource_count\":0\x7d")

def encodeSent (record : AuditRecord Unit) : List UInt8 :=
  sentBefore ++ decimal 19 record.sequence.toNat ++ sentAfter

/-- Notifications that were sent. -/
def sentFormat : RecordFormat Unit where
  encode := encodeSent
  decode bytes :=
    let digits := (bytes.drop sentBefore.length).takeWhile isDigitByte
    let record : AuditRecord Unit := ⟨.ofNat (decimalValue digits), ()⟩
    if encodeSent record = bytes then ok record else err .encode

lemma digit_toNat {d : ℕ} (h : d < 10) : (48 + d).toUInt8.toNat = 48 + d := by
  rw [Nat.toUInt8, UInt8.toNat_ofNat']
  omega

lemma decimal_digits (fuel n : ℕ) : ∀ byte ∈ decimal fuel n, isDigitByte byte = true := by
  have hdigit : ∀ d < 10, isDigitByte (48 + d).toUInt8 = true := by decide
  induction fuel generalizing n with
  | zero =>
    intro byte hbyte
    rw [List.mem_singleton.mp hbyte]
    exact hdigit _ (Nat.mod_lt _ (by decide))
  | succ fuel ih =>
    intro byte hbyte
    rw [decimal] at hbyte
    split_ifs at hbyte with hlt
    · rw [List.mem_singleton.mp hbyte]
      exact hdigit _ hlt
    · rcases List.mem_append.mp hbyte with hbyte | hbyte
      · exact ih _ byte hbyte
      · rw [List.mem_singleton.mp hbyte]
        exact hdigit _ (Nat.mod_lt _ (by decide))

lemma decimalValue_decimal (fuel n : ℕ) (h : n < 10 ^ (fuel + 1)) :
    decimalValue (decimal fuel n) = n := by
  induction fuel generalizing n with
  | zero =>
    have hlt : n % 10 < 10 := Nat.mod_lt _ (by decide)
    rw [decimal, decimalValue, List.foldl_cons, List.foldl_nil, digit_toNat hlt]
    omega
  | succ fuel ih =>
    rw [decimal]
    split_ifs with hlt
    · rw [decimalValue, List.foldl_cons, List.foldl_nil, digit_toNat hlt]
      omega
    · have hdiv : n / 10 < 10 ^ (fuel + 1) := by
        rw [pow_succ] at h
        omega
      have hmod : n % 10 < 10 := Nat.mod_lt _ (by decide)
      have hrest := ih (n / 10) hdiv
      rw [decimalValue] at hrest ⊢
      rw [List.foldl_append, hrest, List.foldl_cons, List.foldl_nil, digit_toNat hmod]
      omega

/-- The closing brace is the only one. -/
lemma brace_mem_encodeSent {record : AuditRecord Unit} {front back : List UInt8}
    (h : encodeSent record = front ++ 0x7d :: back) : back = [] := by
  have hfront : ∃ body, encodeSent record = body ++ [0x7d] ∧ (0x7d : UInt8) ∉ body := by
    have hbefore : (0x7d : UInt8) ∉ sentBefore := by decide
    have hafter : sentAfter = sentAfter.dropLast ++ [0x7d] ∧
        (0x7d : UInt8) ∉ sentAfter.dropLast := by
      decide +kernel
    refine ⟨sentBefore ++ decimal 19 record.sequence.toNat ++ sentAfter.dropLast, ?_, ?_⟩
    · rw [encodeSent, List.append_assoc _ sentAfter.dropLast, ← hafter.1]
    · simp only [List.mem_append, not_or]
      refine ⟨⟨hbefore, fun hmem => ?_⟩, hafter.2⟩
      have hdigit := decimal_digits _ _ _ hmem
      cases hdigit
  obtain ⟨body, hbody, hnot⟩ := hfront
  rw [hbody] at h
  rcases List.append_eq_append_iff.mp h with ⟨mid, -, hmid⟩ | ⟨mid, hmid, hback⟩
  · cases mid with
    | nil => simpa using (List.cons.inj hmid).2.symm
    | cons byte mid =>
      rw [List.cons_append] at hmid
      have hend := (List.cons.inj hmid).2
      simp at hend
  · cases mid with
    | nil => simpa using (List.cons.inj hback).2
    | cons byte mid =>
      rw [List.cons_append] at hback
      obtain ⟨rfl, -⟩ := List.cons.inj hback
      exact absurd (by rw [hmid]; simp) hnot

lemma decode_encodeSent (record : AuditRecord Unit) :
    sentFormat.decode (encodeSent record) = ok record := by
  have hstop : sentAfter.head?.all isDigitByte = false := by decide
  have hdigits : ((encodeSent record).drop sentBefore.length).takeWhile isDigitByte =
      decimal 19 record.sequence.toNat := by
    rw [encodeSent, List.append_assoc, List.drop_left,
      List.takeWhile_append_of_pos (decimal_digits _ _)]
    cases hafter : sentAfter with
    | nil => simp
    | cons byte bytes =>
      rw [hafter, List.head?_cons, Option.all_some] at hstop
      rw [List.takeWhile_cons, hstop]
      simp
  have hvalue : decimalValue (decimal 19 record.sequence.toNat) = record.sequence.toNat :=
    decimalValue_decimal 19 _ (lt_trans record.sequence.toNat_lt (by norm_num))
  have hrecord : (⟨.ofNat record.sequence.toNat, ()⟩ : AuditRecord Unit) = record := by
    rw [UInt64.ofNat_toNat]
  simp only [sentFormat, hdigits, hvalue, hrecord, if_true]

lemma decode_sent_err {bytes : List UInt8} (h : ∀ record, encodeSent record ≠ bytes) :
    sentFormat.decode bytes = err .encode := by
  simp only [sentFormat]
  exact if_neg (h _)

lemma encodeSent_ends (record : AuditRecord Unit) :
    ∃ body, encodeSent record = body ++ [0x7d] ∧ 10 ∉ body := by
  have hbefore : (10 : UInt8) ∉ sentBefore := by decide
  have hafter : sentAfter = sentAfter.dropLast ++ [0x7d] ∧ (10 : UInt8) ∉ sentAfter.dropLast := by
    decide +kernel
  refine ⟨sentBefore ++ decimal 19 record.sequence.toNat ++ sentAfter.dropLast, ?_, ?_⟩
  · rw [encodeSent, List.append_assoc _ sentAfter.dropLast, ← hafter.1]
  · simp only [List.mem_append, not_or]
    refine ⟨⟨hbefore, fun hmem => ?_⟩, hafter.2⟩
    have hdigit := decimal_digits _ _ _ hmem
    cases hdigit

lemma sentFormat_lawful : sentFormat.Lawful where
  decode_encode := decode_encodeSent
  newline_free record := by
    obtain ⟨body, hbody, hnot⟩ := encodeSent_ends record
    show 10 ∉ encodeSent record
    rw [hbody]
    simp [hnot]
  brace record := by
    obtain ⟨body, hbody, -⟩ := encodeSent_ends record
    show (encodeSent record).getLast? = _
    rw [hbody]
    simp
  truncated record part hpart _ hne := by
    refine .inr (decode_sent_err fun other hother => ?_)
    obtain ⟨body, hbody, -⟩ := encodeSent_ends other
    obtain ⟨back, hback⟩ := hpart
    have hwhole : encodeSent record = body ++ 0x7d :: back := by
      rw [show encodeSent record = part ++ back from hback.symm, ← hother, hbody]
      simp
    rw [brace_mem_encodeSent hwhole, List.append_nil] at hback
    exact hne hback
  joined record next := by
    refine decode_sent_err fun other hother => ?_
    obtain ⟨body, hbody, -⟩ := encodeSent_ends record
    obtain ⟨body', hbody', -⟩ := encodeSent_ends next
    have hwhole : encodeSent other = body ++ 0x7d :: encodeSent next := by
      rw [hother, show sentFormat.encode record = encodeSent record from rfl, hbody]
      simp [sentFormat]
    have hnil := brace_mem_encodeSent hwhole
    rw [hbody'] at hnil
    simp at hnil

/-! ## What is read back -/

variable {δ : Type} {format : RecordFormat δ} {path : String}

lemma linesFrom_newline {line bytes rest : List UInt8} (h : 10 ∉ bytes) :
    linesFrom line (bytes ++ 10 :: rest) = stripReturn (line ++ bytes) :: linesFrom [] rest := by
  induction bytes generalizing line with
  | nil => simp [linesFrom]
  | cons byte bytes ih =>
    obtain ⟨hbyte, hbytes⟩ := not_or.mp (mt List.mem_cons.mpr h)
    rw [List.cons_append, linesFrom, if_neg (Ne.symm hbyte), ih hbytes, List.append_assoc]
    rfl

lemma linesFrom_last {line bytes : List UInt8} (h : 10 ∉ bytes) (hne : line ++ bytes ≠ []) :
    linesFrom line bytes = [line ++ bytes] := by
  induction bytes generalizing line with
  | nil =>
    rw [List.append_nil] at hne ⊢
    rw [linesFrom, if_neg (by simpa using hne)]
  | cons byte bytes ih =>
    obtain ⟨hbyte, hbytes⟩ := not_or.mp (mt List.mem_cons.mpr h)
    rw [linesFrom, if_neg (Ne.symm hbyte), ih hbytes (by simp), List.append_assoc]
    rfl

/-- A file with whole lines. -/
def encodeFile (format : RecordFormat δ) (records : List (AuditRecord δ)) : List UInt8 :=
  records.flatMap (encodeLine format)

lemma encodeFile_append (records more : List (AuditRecord δ)) :
    encodeFile format (records ++ more) = encodeFile format records ++ encodeFile format more :=
  List.flatMap_append

lemma encodeFile_singleton (record : AuditRecord δ) :
    encodeFile format [record] = encodeLine format record := by
  simp [encodeFile]

section Lawful

variable (hformat : format.Lawful)

include hformat

lemma encode_ne_nil (record : AuditRecord δ) : format.encode record ≠ [] := by
  intro h
  have hbrace := hformat.brace record
  rw [h] at hbrace
  cases hbrace

lemma stripReturn_encode (record : AuditRecord δ) :
    stripReturn (format.encode record) = format.encode record := by
  rw [stripReturn, hformat.brace record]
  exact if_neg (by decide)

lemma lines_encodeFile (records : List (AuditRecord δ)) (rest : List UInt8) :
    lines (encodeFile format records ++ rest) =
      records.map format.encode ++ lines rest := by
  induction records with
  | nil => rfl
  | cons record records ih =>
    have hbytes : encodeFile format (record :: records) ++ rest =
        format.encode record ++ 10 :: (encodeFile format records ++ rest) := by
      simp [encodeFile, encodeLine]
    rw [hbytes, lines, linesFrom_newline (hformat.newline_free record), List.nil_append,
      stripReturn_encode hformat, List.map_cons, List.cons_append, ← ih]
    rfl

/-- Lines of records with growing numbers are read to the last one. -/
lemma readLines_encoded {previous : Option UInt64} {records : List (AuditRecord δ)}
    (hchain : records.Pairwise fun a b => a.sequence < b.sequence)
    (hprevious : ∀ sequence ∈ previous, ∀ record ∈ records, sequence < record.sequence)
    (rest : List (List UInt8)) :
    readLines format path previous (records.map format.encode ++ rest) =
      readLines format path ((records.getLast?.map AuditRecord.sequence).or previous) rest := by
  induction records generalizing previous with
  | nil => rfl
  | cons record records ih =>
    obtain ⟨hhead, htail⟩ := List.pairwise_cons.mp hchain
    have hfresh : previous.any (record.sequence ≤ ·) = false := by
      cases previous with
      | none => rfl
      | some sequence =>
        have hlt := hprevious sequence rfl record List.mem_cons_self
        simpa using hlt
    rw [List.map_cons, List.cons_append, readLines,
      if_neg (by simpa using encode_ne_nil hformat record), hformat.decode_encode, ok_bind, hfresh,
      if_neg Bool.false_ne_true, ih htail fun sequence hsequence other hother => ?_]
    · rw [List.getLast?_cons]
      cases records.getLast? <;> rfl
    · obtain rfl := Option.some.inj hsequence
      exact hhead other hother

lemma lines_encode (record : AuditRecord δ) :
    lines (format.encode record) = [format.encode record] :=
  linesFrom_last (hformat.newline_free record) (encode_ne_nil hformat record)

end Lawful

/-- The file holds the records; of its last line the end may be missing. -/
def Holds (format : RecordFormat δ) (bytes : List UInt8) (records : List (AuditRecord δ)) :
    Prop :=
  bytes = encodeFile format records ∨ bytes ++ [10] = encodeFile format records

lemma holds_unterminated_iff {bytes : List UInt8} {records : List (AuditRecord δ)} :
    bytes ++ [10] = encodeFile format records ↔ ∃ front record,
      records = front ++ [record] ∧ bytes = encodeFile format front ++ format.encode record := by
  constructor
  · intro h
    rcases List.eq_nil_or_concat records with rfl | ⟨front, record, rfl⟩
    · simp [encodeFile] at h
    · rw [List.concat_eq_append] at h ⊢
      rw [encodeFile_append, encodeFile_singleton, encodeLine, ← List.append_assoc] at h
      exact ⟨front, record, rfl, List.append_cancel_right h⟩
  · rintro ⟨front, record, rfl, rfl⟩
    rw [encodeFile_append, encodeFile_singleton, encodeLine, List.append_assoc]

lemma lines_of_holds {bytes : List UInt8} {records : List (AuditRecord δ)}
    (hformat : format.Lawful) (h : Holds format bytes records) :
    lines bytes = records.map format.encode := by
  rcases h with rfl | h
  · have hlines := lines_encodeFile hformat records []
    rw [List.append_nil] at hlines
    exact hlines.trans (List.append_nil _)
  · obtain ⟨front, record, rfl, rfl⟩ := holds_unterminated_iff.mp h
    rw [lines_encodeFile hformat, lines_encode hformat, List.map_append, List.map_singleton]

lemma readLastSequence_of_holds {bytes : List UInt8} {records : List (AuditRecord δ)}
    (hformat : format.Lawful) (h : Holds format bytes records)
    (hchain : records.Pairwise fun a b => a.sequence < b.sequence) :
    readLastSequence format path bytes = ok (records.getLast?.map AuditRecord.sequence) := by
  have hread := @readLines_encoded _ _ path hformat none records hchain (by simp) []
  rw [List.append_nil, Option.or_none] at hread
  rw [readLastSequence, lines_of_holds hformat h]
  exact hread

/-! ## What the files hold -/

section Shelf

variable {limits : AuditFileLimits} {disk : Disk} {files : ℕ → Option (List (AuditRecord δ))}
  {appended : List (AuditRecord δ)}

/-- The last record in a slot. -/
def lastOf (files : ℕ → Option (List (AuditRecord δ))) (index : ℕ) : Option (AuditRecord δ) :=
  (files index).bind List.getLast?

/-- The slots hold parts of what was appended, in growing order. -/
structure Shelf (format : RecordFormat δ) (limits : AuditFileLimits) (disk : Disk)
    (files : ℕ → Option (List (AuditRecord δ))) (appended : List (AuditRecord δ)) : Prop where
  slots : ∀ i, Option.Rel (Holds format) (disk i) (files i)
  beyond : ∀ i, limits.maximumArchives < i → files i = none
  increasing : appended.Pairwise fun a b => a.sequence < b.sequence
  positive : ∀ record ∈ appended, 1 ≤ record.sequence
  inside : ∀ i file, files i = some file → file <:+: appended
  active : ∀ file, files 0 = some file → file <:+ appended

/-- And the last record that was appended is found first. -/
structure Log (format : RecordFormat δ) (limits : AuditFileLimits) (disk : Disk)
    (files : ℕ → Option (List (AuditRecord δ))) (appended : List (AuditRecord δ)) : Prop
    extends Shelf format limits disk files appended where
  newest : (List.range (limits.maximumArchives + 1)).findSome? (lastOf files) =
    appended.getLast?

namespace Shelf

lemma pairwise (h : Shelf format limits disk files appended) {i : ℕ}
    {file : List (AuditRecord δ)} (hfile : files i = some file) :
    file.Pairwise fun a b => a.sequence < b.sequence :=
  h.increasing.sublist (h.inside i file hfile).sublist

lemma readLastSequence_eq (hformat : format.Lawful)
    (h : Shelf format limits disk files appended) {i : ℕ} {bytes : List UInt8}
    (hbytes : disk i = some bytes) :
    readLastSequence format path bytes = ok ((lastOf files i).map AuditRecord.sequence) := by
  have hslot := h.slots i
  rw [hbytes] at hslot
  obtain ⟨file, hfile⟩ : ∃ file, files i = some file := by
    cases hfiles : files i with
    | none =>
      rw [hfiles] at hslot
      cases hslot
    | some file => exact ⟨file, rfl⟩
  rw [hfile] at hslot
  cases hslot with
  | some hholds =>
    rw [readLastSequence_of_holds hformat hholds (h.pairwise hfile), lastOf, hfile]
    rfl

lemma lastOf_eq_none (h : Shelf format limits disk files appended) {i : ℕ}
    (hnone : disk i = none) : lastOf files i = none := by
  have hslot := h.slots i
  rw [hnone] at hslot
  cases hfiles : files i with
  | none => rw [lastOf, hfiles]; rfl
  | some file =>
    rw [hfiles] at hslot
    cases hslot

lemma lastArchivedSequence_eq (hformat : format.Lawful)
    (h : Shelf format limits disk files appended) (indices : List ℕ) :
    lastArchivedSequence format path disk indices =
      ok ((indices.findSome? (lastOf files)).map AuditRecord.sequence) := by
  induction indices with
  | nil => rfl
  | cons index indices ih =>
    rw [lastArchivedSequence, List.findSome?_cons]
    cases hdisk : disk index with
    | none => rw [h.lastOf_eq_none hdisk, ih]
    | some archive =>
      dsimp only
      rw [h.readLastSequence_eq hformat hdisk, ok_bind]
      cases lastOf files index with
      | none => exact ih
      | some record => rfl

end Shelf

lemma Log.lastDurableSequence_eq (hformat : format.Lawful)
    (h : Log format limits disk files appended) :
    lastDurableSequence format limits path disk =
      ok (appended.getLast?.map AuditRecord.sequence) := by
  have hactive : readLastSequence format path ((disk 0).getD []) =
      ok ((lastOf files 0).map AuditRecord.sequence) := by
    cases hdisk : disk 0 with
    | none => rw [h.lastOf_eq_none hdisk]; rfl
    | some bytes => exact h.readLastSequence_eq hformat hdisk
  have hrange : List.range (limits.maximumArchives + 1) =
      0 :: List.range' 1 limits.maximumArchives := by
    rw [List.range_eq_range', List.range'_succ]
  rw [lastDurableSequence, hactive, ok_bind, ← h.newest, hrange, List.findSome?_cons]
  cases lastOf files 0 with
  | none => exact h.lastArchivedSequence_eq hformat _
  | some record => rfl

end Shelf

end TouchBar.Supervisor.Audit
