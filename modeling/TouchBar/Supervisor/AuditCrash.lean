import TouchBar.Supervisor.AuditRuns

/-!
# A crash inside an append

A process may stop between two file operations of a call, or when some of the bytes of a
write have reached the file.  What the next processes find is good as long as the line was
not begun or is complete; the text of a record without its line end is read back, but the
next record is joined to it.
-/

namespace TouchBar.Supervisor.Audit

open TouchBar.Rust TouchBar.Lib Outcome

variable {δ : Type} {limits : AuditFileLimits} {disk : Disk}
  {files files' : ℕ → Option (List (AuditRecord δ))} {appended : List (AuditRecord δ)}

/-! ## Crashes -/

/-- What is left of some operations: those before the crash, and a part of the bytes of the
write in which it came. -/
def Cut (ops cut : List FileOp) : Prop :=
  ∃ k, cut = ops.take k ∨
    ∃ bytes part, ops[k]? = some (.write bytes) ∧ part <+: bytes ∧
      cut = ops.take k ++ [.write part]

def FileOp.written : FileOp → List UInt8
  | .write bytes => bytes
  | _ => []

/-- The bytes that reached the active file. -/
def written (cut : List FileOp) : List UInt8 := cut.flatMap FileOp.written

section

variable (format : RecordFormat δ) (limits : AuditFileLimits) (path : String)

/-- What a crash leaves.  A record whose text is complete has been appended. -/
def crash (sink : AuditSink δ) (call : AuditCall δ) (cut : List FileOp) : AuditSink δ where
  disk := applyAll sink.disk cut
  appended := sink.appended ++ (appendedBy format limits path sink.disk call).filter
    fun record => (format.encode record).isPrefixOf (written cut)
  rotations := sink.rotations + cut.countP isRemove

/-- The records that are read back from a slot. -/
def recordsIn (disk : Disk) (index : ℕ) : List (AuditRecord δ) :=
  match readRecords format (lines ((disk index).getD [])) with
  | ok records => records
  | _ => []

/-- An append succeeds with a number above all others, unless the numbers are used up or the
record is too long for a file. -/
def Proceeds (sink : AuditSink δ) (record : AuditRecord δ) (age : Option ℕ) : Prop :=
  (∃ stamped ops,
    plan format limits path (FileOp.create.apply sink.disk) record age = ok (stamped, ops) ∧
      ∀ q ∈ sink.appended, q.sequence < stamped.sequence) ∨
  (plan format limits path (FileOp.create.apply sink.disk) record age =
      err (.invalid "durable audit sequence exhausted") ∧
    ∃ q ∈ sink.appended, U64.size ≤ q.sequence.toNat + 1) ∨
  (plan format limits path (FileOp.create.apply sink.disk) record age =
      err (.invalid "one audit record exceeds the file size limit") ∧
    ∃ stamped, Next sink.appended stamped ∧ stamped.content = record.content ∧
      limits.maximumBytes < (encodeLine format stamped).length)

/-- No record is lost but with its archive, after as many rotations as there are slots
behind it. -/
def Keeps (before after : AuditSink δ) : Prop :=
  ∀ i, ∀ record ∈ recordsIn format before.disk i,
    i + (after.rotations - before.rotations) ≤ limits.maximumArchives →
      ∃ j ≤ limits.maximumArchives, record ∈ recordsIn format after.disk j

/-- The log goes on after a crash: whatever the next processes call, every append proceeds, and
the records from before the call and those that it completed are kept. -/
structure Survives (before crashed : AuditSink δ) : Prop where
  proceeds : ∀ later record age,
    Proceeds format limits path (run (AuditSink.step format limits path) crashed later) record age
  before_kept : ∀ later,
    Keeps format limits before (run (AuditSink.step format limits path) crashed later)
  crashed_kept : ∀ later,
    Keeps format limits crashed (run (AuditSink.step format limits path) crashed later)

/-- Every record that comes next starts a new file. -/
def NoRoom (disk : Disk) (appended : List (AuditRecord δ)) : Prop :=
  ∀ record, Next appended record →
    shouldRotate limits ((disk 0).getD []).length (encodeLine format record).length none = true

/-- The crash came before the line was begun, without having removed the only file; or after the
line; or after the text of the record, and nothing will be joined to it. -/
def Harmless (sink : AuditSink δ) (call : AuditCall δ) (cut : List FileOp) : Prop :=
  (written cut = [] ∧ (limits.maximumArchives = 0 → cut.countP isRemove = 0)) ∨
  ∃ record ∈ appendedBy format limits path sink.disk call,
    written cut = encodeLine format record ∨
    (written cut = format.encode record ∧
      NoRoom format limits (applyAll sink.disk cut) (sink.appended ++ [record]))

end

variable {format : RecordFormat δ}

/-! ## The records that are read back -/

lemma recordsIn_eq (hformat : format.Lawful) (h : Shelf format limits disk files appended)
    (i : ℕ) : recordsIn format disk i = (files i).getD [] := by
  have hslot := h.slots i
  rw [recordsIn]
  cases hdisk : disk i with
  | none =>
    rw [hdisk] at hslot
    cases hfiles : files i with
    | none => rfl
    | some file => rw [hfiles] at hslot; cases hslot
  | some bytes =>
    rw [hdisk] at hslot
    cases hfiles : files i with
    | none => rw [hfiles] at hslot; cases hslot
    | some file =>
      rw [hfiles] at hslot
      cases hslot with
      | some hholds =>
        rw [Option.getD_some, lines_of_holds hformat hholds, readRecords_encoded hformat]
        rfl

/-- Slots whose files are found again, at most `r` slots later, with more at their ends. -/
def Moved (limits : AuditFileLimits) (r : ℕ) (files files' : ℕ → Option (List (AuditRecord δ))) :
    Prop :=
  ∀ i file, files i = some file → i + r ≤ limits.maximumArchives →
    ∃ j file', i ≤ j ∧ j ≤ i + r ∧ files' j = some file' ∧ file <+: file'

namespace Moved

lemma refl (files : ℕ → Option (List (AuditRecord δ))) : Moved limits 0 files files :=
  fun i file hfile _ => ⟨i, file, le_rfl, le_rfl, hfile, List.prefix_rfl⟩

lemma trans {files'' : ℕ → Option (List (AuditRecord δ))} {r r' : ℕ}
    (h : Moved limits r files files') (h' : Moved limits r' files' files'') :
    Moved limits (r + r') files files'' := by
  intro i file hfile hle
  obtain ⟨j, file', hij, hjr, hfile', hpre⟩ := h i file hfile (by omega)
  obtain ⟨l, file'', hjl, hlr, hfile'', hpre'⟩ := h' j file' hfile' (by omega)
  exact ⟨l, file'', by omega, by omega, hfile'', hpre.trans hpre'⟩

/-- The active file grows. -/
lemma extend {active more : List (AuditRecord δ)} (hactive : (files 0).getD [] = active) :
    Moved limits 0 files (Function.update files 0 (some (active ++ more))) := by
  intro i file hfile _
  by_cases hi : i = 0
  · subst hi
    rw [hfile, Option.getD_some] at hactive
    subst hactive
    exact ⟨0, _, le_rfl, le_rfl, Function.update_self .., List.prefix_append ..⟩
  · exact ⟨i, file, le_rfl, le_rfl, by rwa [Function.update_of_ne hi], List.prefix_rfl⟩

lemma opened (files : ℕ → Option (List (AuditRecord δ))) :
    Moved limits 0 files (opened files) := by
  have h := @extend _ limits files _ [] rfl
  rwa [List.append_nil] at h

lemma shifted (files : ℕ → Option (List (AuditRecord δ))) (k : ℕ) :
    Moved limits 1 files (shifted limits.maximumArchives k files) := by
  intro i file hfile hle
  by_cases hi : i < limits.maximumArchives - k
  · refine ⟨i, file, le_rfl, by omega, ?_, List.prefix_rfl⟩
    rwa [Audit.shifted, if_pos hi]
  · refine ⟨i + 1, file, by omega, le_rfl, ?_, List.prefix_rfl⟩
    rwa [Audit.shifted, if_neg (by omega), if_neg (by omega), if_pos hle]

lemma afterAppend (files : ℕ → Option (List (AuditRecord δ))) (rotates : Bool)
    (record : AuditRecord δ) :
    Moved limits (if rotates then 1 else 0) files (afterAppend limits files rotates record) := by
  cases rotates with
  | true =>
    -- the moves leave the place of the active file empty
    have hzero : (Audit.shifted limits.maximumArchives limits.maximumArchives files 0).getD
        [] = [] := by
      rw [shifted_zero]
      rfl
    exact (shifted files _).trans (extend hzero)
  | false => exact extend rfl

/-- The records move with their files. -/
lemma mem_recordsIn (hformat : format.Lawful) {disk' : Disk} {appended' : List (AuditRecord δ)}
    {r : ℕ} (hmoved : Moved limits r files files') (h : Shelf format limits disk files appended)
    (h' : Shelf format limits disk' files' appended') {i : ℕ} {record : AuditRecord δ}
    (hrecord : record ∈ recordsIn format disk i) (hle : i + r ≤ limits.maximumArchives) :
    ∃ j ≤ limits.maximumArchives, record ∈ recordsIn format disk' j := by
  rw [recordsIn_eq hformat h] at hrecord
  cases hfile : files i with
  | none => rw [hfile] at hrecord; cases hrecord
  | some file =>
    rw [hfile] at hrecord
    obtain ⟨j, file', hij, hjr, hfile', hpre⟩ := hmoved i file hfile hle
    refine ⟨j, by omega, ?_⟩
    rw [recordsIn_eq hformat h', hfile']
    exact hpre.subset hrecord

end Moved

/-! ## Runs after the crash -/

/-- What the next processes find: the records in order, and at the end of the active file a
whole line, or no room. -/
structure Sound (format : RecordFormat δ) (limits : AuditFileLimits) (sink : AuditSink δ)
    (files : ℕ → Option (List (AuditRecord δ))) : Prop where
  log : Log format limits sink.disk files sink.appended
  ends : Whole format sink.disk files ∨ NoRoom format limits sink.disk sink.appended

lemma shouldRotate_of_age {length appendBytes : ℕ} (age : Option ℕ)
    (h : shouldRotate limits length appendBytes none = true) :
    shouldRotate limits length appendBytes age = true := by
  simp only [shouldRotate, Option.any_none, Bool.or_false, Bool.and_eq_true, Bool.or_eq_true] at h ⊢
  exact ⟨h.1, .inl h.2⟩

lemma isRemove_of_mem_moves {m : ℕ} {op : FileOp}
    (h : op ∈ (List.range m).reverse.map FileOp.rename ++ [.create]) : isRemove op = false := by
  rcases List.mem_append.mp h with h | h
  · obtain ⟨index, -, rfl⟩ := List.mem_map.mp h
    rfl
  · rw [List.mem_singleton.mp h]
    rfl

lemma countP_appendOps (record : AuditRecord δ) (age : Option ℕ) :
    (appendOps format limits disk record age).countP isRemove =
      if rotates format limits disk record age then 1 else 0 := by
  have hmoves : ((List.range limits.maximumArchives).reverse.map FileOp.rename).countP
      isRemove = 0 := by
    rw [List.countP_eq_zero]
    intro op hop
    rw [isRemove_of_mem_moves (List.mem_append_left _ hop)]
    exact Bool.false_ne_true
  rw [appendOps_eq]
  split_ifs
  · rw [rotate_eq, List.countP_append, List.countP_cons, hmoves]
    rfl
  · rfl

namespace Sound

variable {sink : AuditSink δ}

/-- Opening the active file changes nothing. -/
lemma create (h : Sound format limits sink files) :
    Sound format limits ⟨FileOp.create.apply sink.disk, sink.appended, sink.rotations⟩
      (opened files) where
  log := h.log.create
  ends := by
    have hdisk : FileOp.create.apply sink.disk 0 = some ((sink.disk 0).getD []) := by
      rw [create_apply, Function.update_self]
    refine h.ends.imp (fun hwhole active hactive => ?_) (fun hroom record hnext => ?_)
    · rw [opened, Function.update_self] at hactive
      obtain rfl := Option.some.inj hactive
      show FileOp.create.apply sink.disk 0 = _
      rw [hdisk]
      cases hzero : files 0 with
      | none =>
        have hslot := h.log.slots 0
        rw [hzero] at hslot
        cases hbytes : sink.disk 0 with
        | none => rfl
        | some bytes => rw [hbytes] at hslot; cases hslot
      | some active => rw [hwhole active hzero]; rfl
    · show shouldRotate limits ((FileOp.create.apply sink.disk 0).getD []).length _ none = true
      rw [hdisk]
      exact hroom record hnext

/-- After an append the active file ends with a whole line. -/
lemma whole_append (hopen : (files 0).isSome)
    {record : AuditRecord δ} {age : Option ℕ}
    (hwhole : rotates format limits disk record age = false → Whole format disk files) :
    Whole format (applyAll disk (appendOps format limits disk record age))
      (afterAppend limits files (rotates format limits disk record age) record) := by
  intro active hactive
  rw [appendOps_eq]
  cases hrotates : rotates format limits disk record age with
  | true =>
    rw [hrotates, afterAppend, if_pos rfl, Function.update_self] at hactive
    obtain rfl := Option.some.inj hactive
    rw [if_pos rfl, applyAll_append, applyAll_rotate, encodeFile_singleton]
    show FileOp.apply (FileOp.create.apply _) (.write _) 0 = _
    rw [create_apply, FileOp.apply, Function.update_self, Function.update_self, shifted_zero]
    rfl
  | false =>
    obtain ⟨file, hfile⟩ := Option.isSome_iff_exists.mp hopen
    rw [hrotates, afterAppend, if_neg Bool.false_ne_true, Function.update_self, hfile] at hactive
    obtain rfl := Option.some.inj hactive
    rw [if_neg Bool.false_ne_true]
    show FileOp.apply disk (.write _) 0 = _
    rw [FileOp.apply, hwhole hrotates file hfile, Function.update_self, Option.getD_some,
      Option.getD_some, encodeFile_append, encodeFile_singleton]

lemma proceeds (hformat : format.Lawful) (h : Sound format limits sink files) (path : String)
    (record : AuditRecord δ) (age : Option ℕ) : Proceeds format limits path sink record age := by
  rcases h.create.log.plan_spec hformat record age with
    hexhausted | ⟨stamped, hnext, hcontent, ⟨hplan, hlong⟩ | ⟨hplan, -⟩⟩
  · exact .inr (.inl hexhausted)
  · exact .inr (.inr ⟨hplan, stamped, hnext, hcontent, hlong⟩)
  · exact .inl ⟨stamped, _, hplan, hnext.above⟩

lemma step (hformat : format.Lawful) (h : Sound format limits sink files) (path : String)
    (call : AuditCall δ) :
    ∃ files', Sound format limits (sink.step format limits path call) files' ∧
      sink.rotations ≤ (sink.step format limits path call).rotations ∧
      Moved limits ((sink.step format limits path call).rotations - sink.rotations) files
        files' := by
  cases call with
  | new =>
    refine ⟨opened files, ?_, Nat.le_add_right .., ?_⟩
    · have hcreate := h.create
      rw [AuditSink.step, operations, appendedBy, List.append_nil]
      exact ⟨hcreate.log, hcreate.ends⟩
    · show Moved limits (sink.rotations + 0 - sink.rotations) files _
      rw [Nat.add_sub_cancel_left]
      exact Moved.opened files
  | append record age =>
    have hcreate := h.create
    rw [AuditSink.step, operations, appendedBy]
    have hfails : ∃ files', Sound format limits ⟨applyAll sink.disk [.create],
        sink.appended ++ [], sink.rotations + [FileOp.create].countP isRemove⟩ files' ∧
        sink.rotations ≤ sink.rotations + [FileOp.create].countP isRemove ∧
        Moved limits (sink.rotations + [FileOp.create].countP isRemove - sink.rotations) files
          files' := by
      refine ⟨opened files, ?_, Nat.le_add_right .., ?_⟩
      · rw [List.append_nil]
        exact ⟨hcreate.log, hcreate.ends⟩
      · show Moved limits (sink.rotations + 0 - sink.rotations) files _
        rw [Nat.add_sub_cancel_left]
        exact Moved.opened files
    rcases hcreate.log.plan_spec hformat record age with
      ⟨hplan, -⟩ | ⟨stamped, hnext, -, ⟨hplan, -⟩ | ⟨hplan, hlength⟩⟩
    · rw [hplan]
      exact hfails
    · rw [hplan]
      exact hfails
    · rw [hplan]
      have hopen : (opened files 0).isSome := by
        rw [opened, Function.update_self]
        rfl
      -- without room the record starts a new file
      have hwhole : rotates format limits (FileOp.create.apply sink.disk) stamped age = false →
          Whole format (FileOp.create.apply sink.disk) (opened files) := by
        intro hrotates
        rcases hcreate.ends with hwhole | hroom
        · exact hwhole
        · have htrue := shouldRotate_of_age age (hroom stamped hnext)
          rw [rotates, htrue] at hrotates
          cases hrotates
      have hcount := @countP_appendOps _ limits (FileOp.create.apply sink.disk) format stamped age
      refine ⟨_, ⟨hcreate.log.append hopen hnext age hwhole, .inl (whole_append hopen hwhole)⟩,
        Nat.le_add_right .., ?_⟩
      rw [Nat.add_sub_cancel_left]
      show Moved limits (List.countP isRemove (.create :: _)) files _
      rw [List.countP_cons, hcount]
      have hmoved := (@Moved.opened _ limits files).trans (Moved.afterAppend (opened files)
        (rotates format limits (FileOp.create.apply sink.disk) stamped age) stamped)
      rwa [Nat.zero_add] at hmoved

lemma run (hformat : format.Lawful) (h : Sound format limits sink files) (path : String)
    (calls : List (AuditCall δ)) :
    ∃ files', Sound format limits (run (AuditSink.step format limits path) sink calls) files' ∧
      sink.rotations ≤ (Lib.run (AuditSink.step format limits path) sink calls).rotations ∧
      Moved limits
        ((Lib.run (AuditSink.step format limits path) sink calls).rotations - sink.rotations)
        files files' := by
  refine run_invariant
    (P := fun s => ∃ files', Sound format limits s files' ∧ sink.rotations ≤ s.rotations ∧
      Moved limits (s.rotations - sink.rotations) files files')
    (fun s call ⟨files', hsound, hle, hmoved⟩ => ?_) ⟨files, h, le_rfl, ?_⟩ calls
  · obtain ⟨files'', hsound', hle', hmoved'⟩ := hsound.step hformat path call
    refine ⟨files'', hsound', hle.trans hle', ?_⟩
    have hsum : (s.step format limits path call).rotations - sink.rotations =
        s.rotations - sink.rotations + ((s.step format limits path call).rotations -
          s.rotations) := by
      omega
    rw [hsum]
    exact hmoved.trans hmoved'
  · rw [Nat.sub_self]
    exact .refl files

lemma survives (hformat : format.Lawful) {before : AuditSink δ}
    {files₀ : ℕ → Option (List (AuditRecord δ))}
    (hbefore : Shelf format limits before.disk files₀ before.appended)
    (h : Sound format limits sink files) (hle : before.rotations ≤ sink.rotations)
    (hmoved : Moved limits (sink.rotations - before.rotations) files₀ files) (path : String) :
    Survives format limits path before sink where
  proceeds later record age := by
    obtain ⟨files', hsound, -, -⟩ := h.run hformat path later
    exact hsound.proceeds hformat path record age
  before_kept later := by
    obtain ⟨files', hsound, hle', hmoved'⟩ := h.run hformat path later
    intro i record hrecord hi
    have hall := hmoved.trans hmoved'
    exact hall.mem_recordsIn hformat hbefore hsound.log.toShelf hrecord (by omega)
  crashed_kept later := by
    obtain ⟨files', hsound, -, hmoved'⟩ := h.run hformat path later
    intro i record hrecord hi
    exact hmoved'.mem_recordsIn hformat h.log.toShelf hsound.log.toShelf hrecord hi

end Sound

/-! ## Where the crash comes -/

lemma create_create (disk : Disk) :
    FileOp.create.apply (FileOp.create.apply disk) = FileOp.create.apply disk := by
  rw [create_of_isSome]
  rw [create_apply, Function.update_self]
  rfl

/-- Writing nothing opens the active file. -/
lemma write_nil (disk : Disk) : FileOp.apply disk (.write []) = FileOp.create.apply disk := by
  rw [create_apply, FileOp.apply, List.append_nil]

/-- The operations of an append before its write. -/
def beforeWrite (format : RecordFormat δ) (limits : AuditFileLimits) (disk : Disk)
    (record : AuditRecord δ) (age : Option ℕ) : List FileOp :=
  .create :: if rotates format limits disk record age then rotate limits ++ [.create] else []

lemma write_notMem_beforeWrite (record : AuditRecord δ) (age : Option ℕ) (bytes : List UInt8) :
    FileOp.write bytes ∉ beforeWrite format limits disk record age := by
  rw [beforeWrite, rotate_eq]
  split_ifs <;> simp

lemma written_eq_nil {cut : List FileOp} (h : ∀ bytes, FileOp.write bytes ∉ cut) :
    written cut = [] := by
  refine List.flatMap_eq_nil_iff.mpr fun op hop => ?_
  cases op with
  | write bytes => exact absurd hop (h bytes)
  | create => rfl
  | remove => rfl
  | rename => rfl

lemma written_append_write (before : List FileOp) (part : List UInt8)
    (h : ∀ bytes, FileOp.write bytes ∉ before) : written (before ++ [.write part]) = part := by
  have hbefore : before.flatMap FileOp.written = [] := written_eq_nil h
  rw [written, List.flatMap_append, hbefore]
  exact List.append_nil part

/-- The crash comes before the write or in it. -/
lemma Cut.cases {before cut : List FileOp} {line : List UInt8}
    (hbefore : ∀ bytes, FileOp.write bytes ∉ before) (h : Cut (before ++ [.write line]) cut) :
    (∃ k, cut = before.take k) ∨ ∃ part, part <+: line ∧ cut = before ++ [.write part] := by
  obtain ⟨k, rfl | ⟨bytes, part, hget, hpart, rfl⟩⟩ := h
  · rcases Nat.lt_or_ge before.length k with hk | hk
    · refine .inr ⟨line, List.prefix_rfl, List.take_of_length_le ?_⟩
      rw [List.length_append, List.length_singleton]
      omega
    · exact .inl ⟨k, List.take_append_of_le_length hk⟩
  · rcases Nat.lt_or_ge k before.length with hk | hk
    · rw [List.getElem?_append_left hk] at hget
      exact absurd (List.mem_of_getElem? hget) (hbefore bytes)
    · rw [List.getElem?_append_right hk] at hget
      obtain ⟨hindex, hget⟩ := List.getElem?_eq_some_iff.mp hget
      have hk' : k = before.length := by
        rw [List.length_singleton] at hindex
        omega
      subst hk'
      rw [List.getElem_singleton, FileOp.write.injEq] at hget
      subst hget
      exact .inr ⟨part, hpart, by rw [List.take_left]⟩

lemma Cut.cases_create {cut : List FileOp} (h : Cut [.create] cut) :
    cut = [] ∨ cut = [.create] := by
  obtain ⟨k, rfl | ⟨bytes, part, hget, -⟩⟩ := h
  · cases k with
    | zero => exact .inl rfl
    | succ k =>
      rw [List.take_succ_cons, List.take_nil]
      exact .inr rfl
  · cases k <;> simp at hget

/-- A crashed append has appended its record if the text of it is complete. -/
lemma crash_eq {sink : AuditSink δ} {path : String} {call : AuditCall δ}
    {record : AuditRecord δ} (hby : appendedBy format limits path sink.disk call = [record])
    (cut : List FileOp) :
    crash format limits path sink call cut = ⟨applyAll sink.disk cut,
      sink.appended ++ if format.encode record <+: written cut then [record] else [],
      sink.rotations + cut.countP isRemove⟩ := by
  rw [crash, hby]
  by_cases hpre : format.encode record <+: written cut
  · rw [if_pos hpre, List.filter_cons_of_pos (by rwa [List.isPrefixOf_iff_prefix])]
    rfl
  · rw [if_neg hpre, List.filter_cons_of_neg (by rwa [List.isPrefixOf_iff_prefix])]
    rfl

/-- What is left of the operations before the write: nothing, a part of the rotation, or all of
them. -/
lemma take_beforeWrite (hcreate : FileOp.create.apply disk = disk) (record : AuditRecord δ)
    (age : Option ℕ) (k : ℕ) :
    (applyAll disk ((beforeWrite format limits disk record age).take k) = disk ∧
      ((beforeWrite format limits disk record age).take k).countP isRemove = 0) ∨
    (rotates format limits disk record age = true ∧
      ((beforeWrite format limits disk record age).take k).countP isRemove = 1 ∧
      ((∃ j ≤ limits.maximumArchives,
        applyAll disk ((beforeWrite format limits disk record age).take k) =
          shifted limits.maximumArchives j disk) ∨
      applyAll disk ((beforeWrite format limits disk record age).take k) =
        FileOp.create.apply (shifted limits.maximumArchives limits.maximumArchives disk))) := by
  rw [beforeWrite]
  cases k with
  | zero => exact .inl ⟨rfl, rfl⟩
  | succ k =>
    cases hrotates : rotates format limits disk record age with
    | false =>
      rw [if_neg Bool.false_ne_true, List.take_succ_cons, List.take_nil]
      exact .inl ⟨hcreate, rfl⟩
    | true =>
      rw [if_pos rfl, List.take_succ_cons]
      show (applyAll (FileOp.create.apply disk) _ = _ ∧ _) ∨ _ ∧ _ ∧
        ((∃ j ≤ _, applyAll (FileOp.create.apply disk) _ = _) ∨
          applyAll (FileOp.create.apply disk) _ = _)
      rw [hcreate]
      cases k with
      | zero => exact .inl ⟨rfl, rfl⟩
      | succ k =>
        refine .inr ⟨rfl, ?_, ?_⟩
        · rw [rotate_eq, List.cons_append, List.take_succ_cons, List.countP_cons, List.countP_cons,
            List.countP_eq_zero.mpr fun op hop => by
              simp [isRemove_of_mem_moves (List.mem_of_mem_take hop)]]
          rfl
        · have hlength : (rotate limits).length = limits.maximumArchives + 1 := by
            rw [rotate_eq, List.length_cons, List.length_map, List.length_reverse,
              List.length_range]
          rcases Nat.lt_or_ge limits.maximumArchives k with hk | hk
          · refine .inr ?_
            rw [List.take_of_length_le, applyAll_append, applyAll_rotate]
            · rfl
            · rw [List.length_append, hlength, List.length_singleton]
              omega
          · refine .inl ⟨k, hk, ?_⟩
            rw [List.take_append_of_le_length (by omega)]
            exact applyAll_rotate_take limits disk hk

namespace Kept

variable {sink : AuditSink δ} {active : List (AuditRecord δ)}
  {shelf : List (List (AuditRecord δ))}

lemma whole (h : Kept format limits sink active shelf) :
    Whole format sink.disk (slotsOf limits (active :: shelf)) := by
  intro file hfile
  obtain rfl := Option.some.inj (show some active = some file from hfile)
  exact h.disk_zero

/-- A call opens the active file, or it appends a record. -/
lemma operations_cases (hformat : format.Lawful) (h : Kept format limits sink active shelf)
    (path : String) (call : AuditCall δ) :
    (operations format limits path sink.disk call = [.create] ∧
      appendedBy format limits path sink.disk call = []) ∨
    ∃ record age, appendedBy format limits path sink.disk call = [record] ∧
      operations format limits path sink.disk call =
        beforeWrite format limits sink.disk record age ++ [.write (encodeLine format record)] ∧
      Next sink.appended record := by
  cases call with
  | new => exact .inl ⟨rfl, rfl⟩
  | append record age =>
    rw [operations, appendedBy, h.create]
    rcases h.log.plan_spec hformat record age with
      ⟨hplan, -⟩ | ⟨stamped, hnext, -, ⟨hplan, -⟩ | ⟨hplan, -⟩⟩
    · rw [hplan]
      exact .inl ⟨rfl, rfl⟩
    · rw [hplan]
      exact .inl ⟨rfl, rfl⟩
    · rw [hplan]
      refine .inr ⟨stamped, age, rfl, ?_, hnext⟩
      show .create :: appendOps format limits sink.disk stamped age = _
      rw [appendOps_eq, beforeWrite]
      split_ifs
      · rw [List.cons_append, List.append_assoc]
        rfl
      · rfl

/-- A rotation begins with a record in the active file. -/
lemma active_ne_nil (h : Kept format limits sink active shelf) {record : AuditRecord δ}
    {age : Option ℕ} (hrotates : rotates format limits sink.disk record age = true) :
    active ≠ [] := by
  rintro rfl
  rw [rotates, h.disk_zero, shouldRotate] at hrotates
  simp [encodeFile] at hrotates

/-- Nothing was written, and the only file was not removed. -/
lemma sound_unwritten (h : Kept format limits sink active shelf) (record : AuditRecord δ)
    (age : Option ℕ) (k : ℕ) (rotations : ℕ)
    (hremoves : limits.maximumArchives = 0 →
      ((beforeWrite format limits sink.disk record age).take k).countP isRemove = 0) :
    ∃ files, Sound format limits
      ⟨applyAll sink.disk ((beforeWrite format limits sink.disk record age).take k),
        sink.appended, rotations⟩ files ∧
      Moved limits (((beforeWrite format limits sink.disk record age).take k).countP isRemove)
        (slotsOf limits (active :: shelf)) files := by
  rcases @take_beforeWrite _ limits _ format h.create record age k with
    ⟨hdisk, hcount⟩ | ⟨hrotates, hcount, hmoves⟩
  · rw [hdisk, hcount]
    exact ⟨_, ⟨h.log, .inl h.whole⟩, .refl _⟩
  · have hpos : 0 < limits.maximumArchives := by
      rcases Nat.eq_zero_or_pos limits.maximumArchives with hzero | hpos
      · have := hremoves hzero
        omega
      · exact hpos
    obtain ⟨front, last, hlast⟩ := List.eq_nil_or_concat active |>.resolve_left
      (h.active_ne_nil hrotates)
    have hactive : lastOf (slotsOf limits (active :: shelf)) 0 = some last := by
      show active.getLast? = some last
      rw [hlast]
      simp
    have hshifted : ∀ j, Sound format limits
        ⟨shifted limits.maximumArchives j sink.disk, sink.appended, rotations⟩
        (shifted limits.maximumArchives j (slotsOf limits (active :: shelf))) := by
      refine fun j => ⟨h.log.shifted hactive hpos, .inl fun file hfile => ?_⟩
      show shifted limits.maximumArchives j sink.disk 0 = _
      by_cases hplace : 0 < limits.maximumArchives - j
      · rw [shifted, if_pos hplace] at hfile ⊢
        exact h.whole file hfile
      · rw [shifted, if_neg hplace, if_pos (by omega)] at hfile
        cases hfile
    rw [hcount]
    rcases hmoves with ⟨j, -, hdisk⟩ | hdisk
    · rw [hdisk]
      exact ⟨_, hshifted j, .shifted _ j⟩
    · rw [hdisk]
      exact ⟨_, (hshifted limits.maximumArchives).create, (Moved.shifted _ _).trans (.opened _)⟩

lemma applyAll_beforeWrite (h : Kept format limits sink active shelf) (record : AuditRecord δ)
    (age : Option ℕ) (part : List UInt8) :
    applyAll sink.disk (beforeWrite format limits sink.disk record age ++ [FileOp.write part]) =
      applyAll sink.disk (if rotates format limits sink.disk record age then
        rotate limits ++ [.create, .write part] else [.write part]) := by
  rw [beforeWrite, List.cons_append]
  show applyAll (FileOp.create.apply sink.disk) _ = _
  rw [h.create]
  split_ifs
  · rw [List.append_assoc]
    rfl
  · rfl

lemma countP_beforeWrite (record : AuditRecord δ) (age : Option ℕ) (part : List UInt8) :
    (beforeWrite format limits disk record age ++ [FileOp.write part]).countP isRemove =
      if rotates format limits disk record age then 1 else 0 := by
  have hops := @countP_appendOps _ limits disk format record age
  rw [appendOps_eq] at hops
  rw [beforeWrite]
  cases hrotates : rotates format limits disk record age with
  | true =>
    rw [hrotates, if_pos rfl, List.countP_append] at hops
    rw [if_pos rfl, List.cons_append, List.append_assoc, List.countP_cons, List.countP_append]
    exact hops
  | false => rfl

/-- The text of the record was written. -/
lemma sound_written (h : Kept format limits sink active shelf) {record : AuditRecord δ}
    (hnext : Next sink.appended record) (age : Option ℕ) {bytes : List UInt8}
    (hbytes : Holds format bytes [record]) (rotations : ℕ)
    (hends : bytes = encodeLine format record ∨ NoRoom format limits (applyAll sink.disk
      (beforeWrite format limits sink.disk record age ++ [FileOp.write bytes]))
        (sink.appended ++ [record])) :
    ∃ files, Sound format limits
      ⟨applyAll sink.disk (beforeWrite format limits sink.disk record age ++ [FileOp.write bytes]),
        sink.appended ++ [record], rotations⟩ files ∧
      Moved limits
        ((beforeWrite format limits sink.disk record age ++ [FileOp.write bytes]).countP isRemove)
        (slotsOf limits (active :: shelf)) files := by
  have hlog := @Shelf.append _ _ _ _ _ _ h.log.toShelf rfl record bytes hnext hbytes
    (rotates format limits sink.disk record age) fun _ => h.whole
  rw [← h.applyAll_beforeWrite] at hlog
  refine ⟨_, ⟨hlog, hends.imp (fun hline => ?_) id⟩, ?_⟩
  · have hwhole := @Sound.whole_append _ limits sink.disk (slotsOf limits (active :: shelf))
      format rfl record age fun _ => h.whole
    rw [appendOps_eq, ← hline, ← h.applyAll_beforeWrite] at hwhole
    exact hwhole
  · rw [countP_beforeWrite]
    exact Moved.afterAppend _ _ _

/-- A harmless crash leaves a sound log. -/
lemma sound_of_harmless (hformat : format.Lawful) (h : Kept format limits sink active shelf)
    (path : String) {call : AuditCall δ} {cut : List FileOp}
    (hcut : Cut (operations format limits path sink.disk call) cut)
    (hharmless : Harmless format limits path sink call cut) :
    ∃ files, Sound format limits (crash format limits path sink call cut) files ∧
      Moved limits (cut.countP isRemove) (slotsOf limits (active :: shelf)) files := by
  rcases h.operations_cases hformat path call with
    ⟨hops, hby⟩ | ⟨record, age, hby, hops, hnext⟩
  · rw [hops] at hcut
    rw [crash, hby, List.filter_nil, List.append_nil]
    have hnone : applyAll sink.disk cut = sink.disk ∧ cut.countP isRemove = 0 := by
      rcases Cut.cases_create hcut with rfl | rfl
      · exact ⟨rfl, rfl⟩
      · exact ⟨h.create, rfl⟩
    rw [hnone.1, hnone.2]
    exact ⟨_, ⟨h.log, .inl h.whole⟩, .refl _⟩
  · rw [hops] at hcut
    rw [crash_eq hby]
    have hwrites := @write_notMem_beforeWrite _ limits sink.disk format record age
    have hne := encode_ne_nil hformat record
    simp only [Harmless, hby, List.mem_singleton, exists_eq_left] at hharmless
    rcases Cut.cases hwrites hcut with ⟨k, rfl⟩ | ⟨part, -, rfl⟩
    · have hunwritten : written ((beforeWrite format limits sink.disk record age).take k) = [] :=
        written_eq_nil fun bytes hbytes => hwrites bytes (List.mem_of_mem_take hbytes)
      rw [hunwritten] at hharmless ⊢
      rw [if_neg (by rwa [List.prefix_nil]), List.append_nil]
      rcases hharmless with ⟨-, hremoves⟩ | hline | ⟨htext, -⟩
      · exact h.sound_unwritten record age k _ hremoves
      · simp [encodeLine] at hline
      · exact absurd htext.symm hne
    · rw [written_append_write _ part hwrites] at hharmless ⊢
      rcases hharmless with ⟨rfl, hremoves⟩ | rfl | ⟨rfl, hroom⟩
      · have hcount : (beforeWrite format limits sink.disk record age ++
            [FileOp.write []]).countP isRemove =
              (beforeWrite format limits sink.disk record age).countP isRemove := by
          rw [List.countP_append]
          rfl
        have hsound := h.sound_unwritten record age
          (beforeWrite format limits sink.disk record age).length
        rw [List.take_length] at hsound
        rw [hcount] at hremoves ⊢
        rw [if_neg (by rwa [List.prefix_nil]), List.append_nil, applyAll_append]
        obtain ⟨files, hlog, hmoved⟩ := hsound _ hremoves
        refine ⟨_, ?_, hmoved.trans (.opened files)⟩
        show Sound format limits ⟨FileOp.apply _ (.write []), _, _⟩ _
        rw [write_nil]
        exact hlog.create
      · rw [if_pos (show format.encode record <+: encodeLine format record from
          List.prefix_append _ _)]
        exact h.sound_written hnext age (.inl (encodeFile_singleton record).symm) _ (.inl rfl)
      · rw [if_pos List.prefix_rfl]
        exact h.sound_written hnext age (.inr (encodeFile_singleton record).symm) _ (.inr hroom)

end Kept

/-! ## What harms -/

lemma Survives.irrefl_of_restart {before crashed : AuditSink δ} {path : String}
    (h : Survives format limits path before crashed) (hzero : limits.maximumArchives = 0)
    (hdisk : FileOp.create.apply crashed.disk 0 = some []) {q : AuditRecord δ}
    (hq : q ∈ crashed.appended) (hpositive : 1 ≤ q.sequence)
    (hlength : (encodeLine format q).length ≤ limits.maximumBytes) : False := by
  have hlast : lastDurableSequence format limits path (FileOp.create.apply crashed.disk) =
      ok none := by
    rw [lastDurableSequence, hdisk, hzero]
    rfl
  have hstamp : stamp format limits path (FileOp.create.apply crashed.disk) q = ok q := by
    rw [stamp, hlast, ok_bind]
    show ok { q with sequence := if q.sequence ≤ 1 then 1 else q.sequence } = ok q
    split_ifs with hle
    · rw [UInt64.le_antisymm hpositive hle]
    · rfl
  have hplan : ∃ ops, plan format limits path (FileOp.create.apply crashed.disk) q none =
      ok (q, ops) := by
    rw [plan, hstamp, ok_bind]
    dsimp only
    rw [if_neg (not_lt.mpr hlength)]
    split_ifs
    · exact ⟨_, rfl⟩
    · exact ⟨_, rfl⟩
  obtain ⟨ops, hplan⟩ := hplan
  rcases h.proceeds [] q none with ⟨stamped, ops', hplan', habove⟩ | ⟨hplan', -⟩ | ⟨hplan', -⟩
  · obtain ⟨rfl, -⟩ := Prod.mk.inj (Outcome.ok.inj (hplan.symm.trans hplan'))
    exact UInt64.lt_irrefl _ (habove q hq)
  · cases hplan.symm.trans hplan'
  · cases hplan.symm.trans hplan'

/-- After a line that is not a record nothing is appended. -/
lemma plan_broken (hformat : format.Lawful) {file : List (AuditRecord δ)} {line tail : List UInt8}
    {error : AuditFileError} (hdisk : disk 0 = some (encodeFile format file ++ tail))
    (hchain : file.Pairwise fun a b => a.sequence < b.sequence) (hlines : lines tail = [line])
    (hne : line ≠ []) (hdecode : format.decode line = err error) (path : String)
    (record : AuditRecord δ) (age : Option ℕ) :
    plan format limits path disk record age = err error := by
  have hread : readLastSequence format path (encodeFile format file ++ tail) = err error := by
    rw [readLastSequence, lines_encodeFile hformat, hlines,
      readLines_encoded hformat hchain (by simp), readLines, if_neg (by simpa using hne), hdecode]
    rfl
  rw [plan, stamp, lastDurableSequence, hdisk, Option.getD_some, hread]
  rfl

lemma Survives.not_broken {before crashed : AuditSink δ} {path : String}
    (h : Survives format limits path before crashed) (later : List (AuditCall δ))
    {record : AuditRecord δ} {age : Option ℕ} {error : AuditFileError}
    (herror : error = .io ∨ error = .encode) :
    plan format limits path (FileOp.create.apply
      (run (AuditSink.step format limits path) crashed later).disk) record age ≠ err error := by
  intro hplan
  rcases h.proceeds later record age with ⟨_, _, hplan', -⟩ | ⟨hplan', -⟩ | ⟨hplan', -⟩
  · cases hplan.symm.trans hplan'
  · obtain rfl := Outcome.err.inj (hplan.symm.trans hplan')
    rcases herror with herror | herror <;> cases herror
  · obtain rfl := Outcome.err.inj (hplan.symm.trans hplan')
    rcases herror with herror | herror <;> cases herror

namespace Kept

variable {sink : AuditSink δ} {active : List (AuditRecord δ)}
  {shelf : List (List (AuditRecord δ))}

/-- The active file after a part of the write. -/
lemma disk_written (h : Kept format limits sink active shelf) (record : AuditRecord δ)
    (age : Option ℕ) (part : List UInt8) :
    ∃ file, file <:+ sink.appended ∧
      applyAll sink.disk (beforeWrite format limits sink.disk record age ++ [FileOp.write part]) 0 =
        some (encodeFile format file ++ part) := by
  rw [h.applyAll_beforeWrite]
  split_ifs
  · refine ⟨[], List.nil_suffix, ?_⟩
    rw [applyAll_append, applyAll_rotate]
    show FileOp.apply (FileOp.create.apply _) (.write _) 0 = _
    rw [create_apply, FileOp.apply, Function.update_self, Function.update_self, shifted_zero]
    rfl
  · refine ⟨active, h.log.active active rfl, ?_⟩
    show FileOp.apply sink.disk (.write _) 0 = _
    rw [FileOp.apply, h.disk_zero, Function.update_self]
    rfl

/-- A part of the text of a record. -/
lemma not_survives_torn (hformat : format.Lawful) (h : Kept format limits sink active shelf)
    {record : AuditRecord δ} {age : Option ℕ} {part : List UInt8}
    (hpart : part <+: format.encode record) (hne : part ≠ [])
    (hproper : part ≠ format.encode record) {crashed : AuditSink δ}
    (hdisk : crashed.disk = applyAll sink.disk
      (beforeWrite format limits sink.disk record age ++ [.write part])) (path : String) :
    ¬ Survives format limits path sink crashed := by
  intro hsurvives
  obtain ⟨file, hfile, hzero⟩ := h.disk_written record age part
  rw [← hdisk] at hzero
  have hcreate : FileOp.create.apply crashed.disk = crashed.disk :=
    create_of_isSome (by rw [hzero]; rfl)
  have hchain := h.log.increasing.sublist hfile.sublist
  have hlines : lines part = [part] :=
    linesFrom_last (fun hmem => hformat.newline_free record (hpart.subset hmem)) hne
  have hbroken : ∀ error, error = .io ∨ error = .encode → format.decode part ≠ err error := by
    intro error herror hdecode
    have hplan : plan format limits path crashed.disk record age = err error :=
      plan_broken hformat hzero hchain hlines hne hdecode path record age
    rw [← hcreate] at hplan
    exact hsurvives.not_broken [] herror hplan
  rcases hformat.truncated record part hpart hne hproper with hdecode | hdecode
  · exact hbroken _ (.inl rfl) hdecode
  · exact hbroken _ (.inr rfl) hdecode

/-- The text of a record without its line end, where the next record is joined to it. -/
lemma not_survives_joined (hformat : format.Lawful) (h : Kept format limits sink active shelf)
    {record : AuditRecord δ} {age : Option ℕ} (hnext : Next sink.appended record)
    {crashed : AuditSink δ} (hdisk : crashed.disk = applyAll sink.disk
      (beforeWrite format limits sink.disk record age ++ [.write (format.encode record)]))
    (happended : crashed.appended = sink.appended ++ [record])
    (hroom : ¬ NoRoom format limits crashed.disk crashed.appended) (path : String) :
    ¬ Survives format limits path sink crashed := by
  intro hsurvives
  obtain ⟨file, hfile, hzero⟩ := h.disk_written record age (format.encode record)
  have hlog := @Shelf.append _ _ _ _ _ _ h.log.toShelf rfl record (format.encode record) hnext
    (.inr (encodeFile_singleton record).symm) (rotates format limits sink.disk record age)
    fun _ => h.whole
  rw [← h.applyAll_beforeWrite, ← hdisk, ← happended] at hlog
  rw [← hdisk] at hzero
  have hcreate : FileOp.create.apply crashed.disk = crashed.disk :=
    create_of_isSome (by rw [hzero]; rfl)
  simp only [NoRoom, not_forall, Bool.not_eq_true] at hroom
  obtain ⟨next, hafter, hfits⟩ := hroom
  -- the next record goes to the same line
  have hplan : plan format limits path crashed.disk next none =
      ok (next, [.write (encodeLine format next)]) := by
    have hlast : record ∈ crashed.appended.getLast? := by
      rw [happended]
      simp
    rcases @Log.plan_spec _ format path limits _ _ _ hformat hlog next none with
      ⟨-, q, hq, hfull⟩ | ⟨stamped, hstamped, hcontent, hplan⟩
    · have hlt := UInt64.lt_iff_toNat_lt.mp (hafter.above q hq)
      have hsize : next.sequence.toNat < U64.size := next.sequence.toNat_lt
      omega
    · have hsequence : stamped.sequence = next.sequence := by
        rw [← UInt64.toNat_inj, hstamped.follows record hlast, hafter.follows record hlast]
      obtain rfl : stamped = next := by
        cases stamped
        cases next
        simp_all
      rcases hplan with ⟨-, hlong⟩ | ⟨hplan, -⟩
      · have hpos : 0 < ((crashed.disk 0).getD []).length := by
          rw [hzero, Option.getD_some, List.length_append]
          have := List.length_pos_iff.mpr (encode_ne_nil hformat record)
          omega
        have hle := fits_of_not_rotates hpos hfits
        omega
      · rw [hplan, appendOps_eq, rotates, hfits]
        rfl
  have hjoined : (run (AuditSink.step format limits path) crashed [.append next none]).disk 0 =
      some (encodeFile format file ++ (format.encode record ++ encodeLine format next)) := by
    show applyAll crashed.disk (operations format limits path crashed.disk _) 0 = _
    rw [operations, hcreate, hplan]
    show FileOp.apply (FileOp.create.apply crashed.disk) (.write (encodeLine format next)) 0 = _
    rw [hcreate, FileOp.apply, hzero, Function.update_self, Option.getD_some, List.append_assoc]
  have hlines : lines (format.encode record ++ encodeLine format next) =
      [format.encode record ++ format.encode next] := by
    have hfree : 10 ∉ format.encode record ++ format.encode next := by
      rw [List.mem_append, not_or]
      exact ⟨hformat.newline_free record, hformat.newline_free next⟩
    have hstrip : stripReturn (format.encode record ++ format.encode next) =
        format.encode record ++ format.encode next := by
      rw [stripReturn, List.getLast?_append, hformat.brace next, Option.some_or]
      exact if_neg (by decide)
    rw [encodeLine, ← List.append_assoc, lines, linesFrom_newline hfree, List.nil_append, hstrip]
    rfl
  have hne : format.encode record ++ format.encode next ≠ [] := by
    simp [encode_ne_nil hformat]
  have hbroken := @plan_broken _ limits _ _ hformat _ _ _ _ hjoined
    (h.log.increasing.sublist hfile.sublist) hlines hne (hformat.joined record next) path next none
  have hopen : ((run (AuditSink.step format limits path) crashed
      [.append next none]).disk 0).isSome := by
    rw [hjoined]
    rfl
  rw [← create_of_isSome hopen] at hbroken
  exact hsurvives.not_broken [.append next none] (.inr rfl) hbroken

/-- The only file was removed, and nothing was written to the new one. -/
lemma not_survives_removed (h : Kept format limits sink active shelf)
    (hzero : limits.maximumArchives = 0) {record : AuditRecord δ} {age : Option ℕ} {k : ℕ}
    (hremoved :
      ((beforeWrite format limits sink.disk record age).take k).countP isRemove ≠ 0)
    {crashed : AuditSink δ} (hdisk : FileOp.create.apply crashed.disk = FileOp.create.apply
      (applyAll sink.disk ((beforeWrite format limits sink.disk record age).take k)))
    (happended : crashed.appended = sink.appended) (path : String) :
    ¬ Survives format limits path sink crashed := by
  intro hsurvives
  rcases @take_beforeWrite _ limits _ format h.create record age k with
    ⟨-, hcount⟩ | ⟨hrotates, -, hmoves⟩
  · exact hremoved hcount
  · obtain ⟨q, hq⟩ := List.exists_mem_of_ne_nil _ (h.active_ne_nil hrotates)
    have hmem : q ∈ sink.appended := (h.log.active active rfl).subset hq
    have hempty : FileOp.create.apply crashed.disk 0 = some [] := by
      have hshifted : ∀ j ≤ limits.maximumArchives,
          shifted limits.maximumArchives j sink.disk 0 = none := by
        intro j hj
        rw [shifted, if_neg (by omega), if_pos (by omega)]
      rw [hdisk, create_apply, Function.update_self]
      rcases hmoves with ⟨j, hj, hmoved⟩ | hmoved
      · rw [hmoved, hshifted j hj]
        rfl
      · rw [hmoved, create_apply, Function.update_self, hshifted _ le_rfl]
        rfl
    refine hsurvives.irrefl_of_restart hzero hempty (happended ▸ hmem) (h.log.positive q hmem) ?_
    have hline : (encodeLine format q).length ≤ (encodeFile format active).length := by
      obtain ⟨front, back, rfl⟩ := List.append_of_mem hq
      rw [encodeFile_append, encodeFile, encodeFile, List.flatMap_cons]
      simp only [List.length_append]
      omega
    exact hline.trans h.fits

/-- A crash that is not harmless leaves a log that does not go on. -/
lemma not_survives (hformat : format.Lawful) (h : Kept format limits sink active shelf)
    (path : String) {call : AuditCall δ} {cut : List FileOp}
    (hcut : Cut (operations format limits path sink.disk call) cut)
    (hharmful : ¬ Harmless format limits path sink call cut) :
    ¬ Survives format limits path sink (crash format limits path sink call cut) := by
  rw [Harmless, not_or, not_and, Classical.not_imp] at hharmful
  obtain ⟨hremoved, hwrote⟩ := hharmful
  rcases h.operations_cases hformat path call with
    ⟨hops, -⟩ | ⟨record, age, hby, hops, hnext⟩
  · rw [hops] at hcut
    rcases Cut.cases_create hcut with rfl | rfl
    · exact absurd rfl (hremoved rfl).2
    · exact absurd rfl (hremoved rfl).2
  · rw [hops] at hcut
    rw [crash_eq hby]
    have hwrites := @write_notMem_beforeWrite _ limits sink.disk format record age
    have hne := encode_ne_nil hformat record
    simp only [hby, List.mem_singleton, exists_eq_left, not_or] at hwrote
    rcases Cut.cases hwrites hcut with ⟨k, rfl⟩ | ⟨part, hpart, rfl⟩
    · have hunwritten : written ((beforeWrite format limits sink.disk record age).take k) = [] :=
        written_eq_nil fun bytes hbytes => hwrites bytes (List.mem_of_mem_take hbytes)
      obtain ⟨hzero, hcount⟩ := hremoved hunwritten
      rw [hunwritten, if_neg (by rwa [List.prefix_nil]), List.append_nil]
      refine h.not_survives_removed hzero hcount ?_ ?_ path
      · rfl
      · rfl
    · rw [written_append_write _ part hwrites] at hremoved hwrote ⊢
      rcases List.prefix_concat_iff.mp hpart with rfl | hpart
      · exact absurd rfl hwrote.1
      · by_cases hempty : part = []
        · subst hempty
          obtain ⟨hzero, hcount⟩ := hremoved rfl
          rw [if_neg (by rwa [List.prefix_nil]), List.append_nil]
          rw [List.countP_append] at hcount
          rw [← List.take_length (l := beforeWrite format limits sink.disk record age)] at hcount
          refine h.not_survives_removed hzero hcount ?_ ?_ path
          · rw [List.take_length]
            show FileOp.create.apply (applyAll sink.disk (_ ++ [FileOp.write []])) = _
            rw [applyAll_append]
            show FileOp.create.apply (FileOp.apply _ (.write [])) = _
            rw [write_nil, create_create]
          · rfl
        · by_cases htext : part = format.encode record
          · subst htext
            rw [if_pos List.prefix_rfl]
            refine h.not_survives_joined hformat hnext rfl rfl (fun hroom => ?_) path
            exact hwrote.2 ⟨rfl, hroom⟩
          · exact h.not_survives_torn hformat hpart hempty htext rfl path

end Kept

/-! ## Every crash -/

/-- After any run of appends and a crash at any point of the next call, the log goes on if and
only if the crash was harmless. -/
theorem survives_iff (hformat : format.Lawful) {start : AuditSink δ}
    (hnew : AuditSink.new limits = ok start) (path : String) (earlier : List (AuditCall δ))
    (call : AuditCall δ) (cut : List FileOp)
    (hcut : Cut (operations format limits path
      (run (AuditSink.step format limits path) start earlier).disk call) cut) :
    Survives format limits path (run (AuditSink.step format limits path) start earlier)
        (crash format limits path (run (AuditSink.step format limits path) start earlier) call
          cut) ↔
      Harmless format limits path (run (AuditSink.step format limits path) start earlier) call
        cut := by
  obtain ⟨active, shelf, h⟩ := kept_run hformat hnew path earlier
  generalize run (AuditSink.step format limits path) start earlier = sink at hcut h ⊢
  constructor
  · intro hsurvives
    by_contra hharmful
    exact h.not_survives hformat path hcut hharmful hsurvives
  · intro hharmless
    obtain ⟨files, hsound, hmoved⟩ := h.sound_of_harmless hformat path hcut hharmless
    refine hsound.survives hformat h.log.toShelf (Nat.le_add_right ..) ?_ path
    show Moved limits (sink.rotations + _ - sink.rotations) _ _
    rwa [Nat.add_sub_cancel_left]

/-- The second append stops before its write. -/
theorem survives_iff_opened :
    ∃ start : AuditSink Unit, AuditSink.new smallLimits = ok start ∧
      Survives sentFormat smallLimits "audit"
        (run (AuditSink.step sentFormat smallLimits "audit") start [sentCall])
        (crash sentFormat smallLimits "audit"
          (run (AuditSink.step sentFormat smallLimits "audit") start [sentCall]) sentCall
            [.create]) := by
  have hnew : AuditSink.new (δ := Unit) smallLimits = ok _ := rfl
  refine ⟨_, hnew, (survives_iff sentFormat_lawful hnew "audit" [sentCall] sentCall _
    ⟨1, .inl ?_⟩).mpr ?_⟩
  · rfl
  · exact .inl ⟨rfl, fun _ => rfl⟩

/-- One byte of the first record reaches the file, and nothing is appended any more. -/
theorem crash_torn :
    ∃ start : AuditSink Unit, AuditSink.new smallLimits = ok start ∧
      Cut (operations sentFormat smallLimits "audit" start.disk sentCall)
        [.create, .write [0x7b]] ∧
      ¬ Survives sentFormat smallLimits "audit" start
        (crash sentFormat smallLimits "audit" start sentCall [.create, .write [0x7b]]) := by
  have hnew : AuditSink.new (δ := Unit) smallLimits = ok _ := rfl
  refine ⟨_, hnew, ⟨1, .inr ⟨encodeLine sentFormat ⟨1, ()⟩, [0x7b], ?_, ?_, ?_⟩⟩, ?_⟩
  · decide +kernel
  · decide
  · decide
  · intro hsurvives
    have hbroken : plan sentFormat smallLimits "audit" (FileOp.create.apply
        (applyAll (FileOp.create.apply fun _ => none) [.create, .write [0x7b]]))
        ⟨1, ()⟩ none = err .encode := by
      decide
    exact hsurvives.not_broken [] (.inr rfl) hbroken

end TouchBar.Supervisor.Audit
