import TouchBar.Supervisor.FailedWrites

/-!
# The content of an upload

The temporary file of an upload holds the kept content of its target and the accepted chunks
in order, as far as it was written; a chunk that fails half way leaves bytes behind that the
next one overwrites.  Nobody but the broker writes to that file.  Any system call may fail
here, any command may be cancelled, and the external process may do to the target what it
likes.

A commit that succeeds has moved the temporary file to its target.  For an exchange this needs
an argument, since a rollback may have failed before: whatever the names lead to, the file
that was validated does not come back to its name without the temporary file.
-/

namespace TouchBar.Supervisor

open TouchBar.Rust TouchBar.Lib TouchBar.Policy TouchBar.Schema Outcome

variable {w w' : World} {entry : Entry} {file n clock : ℕ} {action : External} {files : Files}
  {upload : WriteUpload} {content : List UInt8}

/-! ## What the external process can do to a staged file -/

namespace External

/-- A file that is not new is as it was, or has just changed. -/
lemma inodes_apply (action : External) (clock : ℕ) (files : Files) (hn : file ≠ n) :
    (action.apply n clock files).inodes file = files.inodes file ∨
      ((action.apply n clock files).inodes file).changed = clock := by
  by_cases hentry : files.names action.entry = some file
  · cases action with
    | replace entry regular links bytes modified =>
      rw [External.entry] at hentry
      exact .inr (by simp [apply, Files.dropName, hentry, hn])
    | remove entry =>
      rw [External.entry] at hentry
      exact .inr (by simp [apply, Files.dropName, hentry])
    | change entry links bytes modified =>
      rw [External.entry] at hentry
      simp only [apply, hentry, Files.change]
      split_ifs
      · exact .inl rfl
      · exact .inr (by simp)
  · exact .inl (inodes_apply_of_ne hentry hn)

/-- A staged file keeps its content.  It can lose a name, and a link with it. -/
lemma staged_apply (action : External) (clock : ℕ) (files : Files) (hn : file ≠ n)
    (hstaged : (files.inodes file).staged = true) :
    ((action.apply n clock files).inodes file).bytes = (files.inodes file).bytes ∧
      ((action.apply n clock files).inodes file).staged = true ∧
      ((files.names action.entry = some file ∧
          ((action.apply n clock files).inodes file).links = (files.inodes file).links - 1) ∨
        ((action.apply n clock files).inodes file).links = (files.inodes file).links ∧
          (files.names action.entry = some file →
            (action.apply n clock files).names = files.names)) := by
  by_cases hentry : files.names action.entry = some file
  · cases action with
    | replace entry regular links bytes modified =>
      rw [External.entry] at hentry
      simp [apply, Files.dropName, hentry, hn, hstaged, External.entry]
    | remove entry =>
      rw [External.entry] at hentry
      simp [apply, Files.dropName, hentry, hstaged, External.entry]
    | change entry links bytes modified =>
      rw [External.entry] at hentry
      simp [apply, hentry, Files.change, hstaged, External.entry]
  · rw [inodes_apply_of_ne hentry hn]
    exact ⟨rfl, hstaged, .inr ⟨rfl, fun h => absurd h hentry⟩⟩

/-- No action brings an old file under a name. -/
lemma names_apply_ne (h : files.names entry ≠ some file) (hn : file ≠ n) :
    (action.apply n clock files).names entry ≠ some file := by
  rw [names_apply, Function.update_apply]
  split_ifs with heq
  · subst heq
    cases action with
    | replace entry regular links bytes modified => simpa [nameAfter] using Ne.symm hn
    | remove entry => simp [nameAfter]
    | change entry links bytes modified => exact h
  · exact h

end External

/-! ## The names of an upload -/

/-- The file that a stream has validated when it opened.  While nobody changes it, it has the
given content.  It does not come back to the name of the target unless the temporary file
stands under its own name. -/
structure Validated (upload : WriteUpload) (content : List UInt8) (descriptor : ℕ)
    (expected : Stat) (w : World) : Prop where
  file : expected.file = descriptor
  ne : descriptor ≠ upload.temporaryFile
  lt : descriptor < w.nextFile
  old : expected.changed < w.clock
  unchanged : (w.files.inodes descriptor).changed = expected.changed →
    (w.files.inodes descriptor).bytes = content
  away : w.files.names upload.temporary = some upload.temporaryFile ∨
    w.files.names upload.target ≠ some descriptor ∨
      (w.files.inodes upload.temporaryFile).links = 0

/-- The temporary file of an upload: it has its temporary name, or the name of its target, or
no name at all. -/
structure Owned (upload : WriteUpload) (content : List UInt8) (w : World) : Prop where
  lt : upload.temporaryFile < w.nextFile
  staged : (w.files.inodes upload.temporaryFile).staged = true
  reserved : isReserved upload.temporary.name = true
  plain : isReserved upload.target.name = false
  links_le : (w.files.inodes upload.temporaryFile).links ≤ 1
  named : (w.files.inodes upload.temporaryFile).links = 1 →
    w.files.names upload.temporary = some upload.temporaryFile ∨
      w.files.names upload.target = some upload.temporaryFile
  validated : ∀ descriptor expected, upload.expectedTarget = some (descriptor, expected) →
    Validated upload content descriptor expected w

/-- The bytes of the temporary file. -/
def bytesOf (upload : WriteUpload) (w : World) : List UInt8 :=
  (w.files.inodes upload.temporaryFile).bytes

/-- What an action of the external process makes of the names and the link of an upload. -/
lemma Owned.apply (h : Owned upload content w)
    (hplain : isReserved action.entry.name = false) :
    (action.apply w.nextFile w.clock w.files).names upload.temporary =
        w.files.names upload.temporary ∧
      ((w.files.names action.entry = some upload.temporaryFile ∧
          ((action.apply w.nextFile w.clock w.files).inodes upload.temporaryFile).links = 0) ∨
        ((action.apply w.nextFile w.clock w.files).inodes upload.temporaryFile).links =
            (w.files.inodes upload.temporaryFile).links ∧
          (w.files.names upload.target = some upload.temporaryFile →
            (action.apply w.nextFile w.clock w.files).names upload.target =
              some upload.temporaryFile)) := by
  have hne : upload.temporary ≠ action.entry := by
    intro heq
    have hreserved := h.reserved
    rw [heq, hplain] at hreserved
    cases hreserved
  refine ⟨?_, ?_⟩
  · rw [External.names_apply, Function.update_of_ne hne]
  obtain ⟨-, -, hlinks⟩ := External.staged_apply action w.clock w.files
    (Nat.ne_of_lt h.lt) h.staged
  rcases hlinks with ⟨hentry, hlinks⟩ | ⟨hlinks, hnames⟩
  · have hle := h.links_le
    exact .inl ⟨hentry, by omega⟩
  · refine .inr ⟨hlinks, fun htarget => ?_⟩
    by_cases heq : upload.target = action.entry
    · rw [hnames (heq ▸ htarget), htarget]
    · rw [External.names_apply, Function.update_of_ne heq, htarget]

lemma Owned.interfere (h : Owned upload content w) :
    Owned upload content (w.interfere action) := by
  by_cases hplain : isReserved action.entry.name = true
  · rwa [interfere_of_reserved hplain]
  have hplain : isReserved action.entry.name = false := by simpa using hplain
  obtain ⟨-, hstaged, -⟩ := External.staged_apply action w.clock w.files
    (Nat.ne_of_lt h.lt) h.staged
  obtain ⟨htemporary, hlinks⟩ := h.apply hplain
  rw [interfere_of_plain hplain]
  refine ⟨Nat.lt_succ_of_lt h.lt, hstaged, h.reserved, h.plain, ?_, fun hone => ?_,
    fun descriptor expected hexpected => ?_⟩
  · have hle := h.links_le
    dsimp only
    omega
  · dsimp only at hone ⊢
    rw [htemporary]
    rcases hlinks with ⟨-, hzero⟩ | ⟨hsame, htarget⟩
    · omega
    · exact (h.named (hsame ▸ hone)).imp_right htarget
  · have hv := h.validated descriptor expected hexpected
    refine ⟨hv.file, hv.ne, Nat.lt_succ_of_lt hv.lt, Nat.lt_succ_of_lt hv.old, fun hunchanged => ?_,
      ?_⟩
    · dsimp only at hunchanged ⊢
      rcases External.inodes_apply action w.clock w.files
        (Nat.ne_of_lt hv.lt) with hsame | hclock
      · rw [hsame] at hunchanged ⊢
        exact hv.unchanged hunchanged
      · have hold := hv.old
        omega
    · dsimp only
      rw [htemporary]
      rcases hv.away with htemporary | htarget | hzero
      · exact .inl htemporary
      · exact .inr (.inl (External.names_apply_ne htarget (Nat.ne_of_lt hv.lt)))
      · refine .inr (.inr ?_)
        rcases hlinks with ⟨-, hlinks⟩ | ⟨hlinks, -⟩
        · exact hlinks
        · rw [hlinks, hzero]

lemma bytesOf_interfere (h : Owned upload content w) :
    bytesOf upload (w.interfere action) = bytesOf upload w := by
  by_cases hplain : isReserved action.entry.name = true
  · rw [interfere_of_reserved hplain]
  · rw [interfere_of_plain (by simpa using hplain)]
    exact (External.staged_apply _ _ _ (Nat.ne_of_lt h.lt) h.staged).1

/-- A condition on the bytes of an upload is stable. -/
lemma stable_owned (φ : List UInt8 → Prop) :
    Stable fun w => Owned upload content w ∧ φ (bytesOf upload w) where
  interfere w action _ h := ⟨h.1.interfere, by rw [bytesOf_interfere h.1]; exact h.2⟩
  turns w turn turns _ h := by
    refine ⟨⟨h.1.lt, h.1.staged, h.1.reserved, h.1.plain, h.1.links_le, h.1.named, ?_⟩, h.2⟩
    intro descriptor expected hexpected
    have hv := h.1.validated descriptor expected hexpected
    exact ⟨hv.file, hv.ne, hv.lt, hv.old, hv.unchanged, hv.away⟩

/-! ## Writing -/

namespace Sys

open Prog

lemma isPrefix_overwrite {done bytes before : List UInt8} (h : done <+: before) :
    done ++ bytes <+: overwrite before done.length bytes := by
  obtain ⟨rest, rfl⟩ := h
  rw [overwrite, List.append_assoc done rest, List.take_left]
  exact List.prefix_append _ _

/-- Writing to the temporary file changes its content and nothing else. -/
lemma owned_written {bytes : List UInt8} {offset : ℕ} (h : Owned upload content w) :
    Owned upload content (written upload.temporaryFile bytes offset w) := by
  refine ⟨h.lt, ?_, h.reserved, h.plain, ?_, fun hone => h.named ?_, fun descriptor expected
    hexpected => ?_⟩
  · simp [written, h.staged]
  · simpa [written] using h.links_le
  · simpa [written] using hone
  · have hv := h.validated descriptor expected hexpected
    refine ⟨hv.file, hv.ne, hv.lt, Nat.lt_succ_of_lt hv.old, fun hunchanged => ?_, ?_⟩
    · simp only [written, Files.inodes_setInode, Function.update_of_ne hv.ne] at hunchanged ⊢
      exact hv.unchanged hunchanged
    · simpa [written] using hv.away

lemma bytesOf_written {bytes : List UInt8} {offset : ℕ} :
    bytesOf upload (written upload.temporaryFile bytes offset w) =
      overwrite (bytesOf upload w) offset bytes := by
  simp [bytesOf, written]

/-- Bytes that are written behind others follow them, and what stands in front stays even where
the write fails. -/
lemma triple_append (done bytes : List UInt8) :
    Triple (fun w => Owned upload content w ∧ done <+: bytesOf upload w)
      (pwriteAllAt upload.temporaryFile bytes done.length)
      (fun _ w => Owned upload content w ∧ done ++ bytes <+: bytesOf upload w)
      fun _ w => Owned upload content w ∧ done <+: bytesOf upload w := by
  let I : List UInt8 → ℕ → World → Prop := fun rest offset w => Owned upload content w ∧
    ∃ written, written ++ rest = bytes ∧ offset = (done ++ written).length ∧
      done ++ written <+: bytesOf upload w
  refine triple_weaken (triple_pwriteAllAt (I := I) bytes done.length
    (fun rest offset => stable_owned fun b => ∃ written, written ++ rest = bytes ∧
      offset = (done ++ written).length ∧ done ++ written <+: b)
    (fun rest offset n w hn h => ?_) fun rest offset code w h => ?_) (fun w h => ?_)
    (fun _ w h => ?_) fun _ w h => h
  · obtain ⟨howned, written', rfl, rfl, hprefix⟩ := h
    refine ⟨owned_written howned, written' ++ rest.take n, ?_, ?_, ?_⟩
    · rw [List.append_assoc, List.take_append_drop]
    · simp only [List.length_append, List.length_take]
      omega
    · rw [bytesOf_written, ← List.append_assoc]
      exact isPrefix_overwrite hprefix
  · obtain ⟨howned, written', -, -, hprefix⟩ := h
    exact ⟨howned, (List.prefix_append done written').trans hprefix⟩
  · exact ⟨h.1, [], rfl, by simp, by simpa using h.2⟩
  · obtain ⟨howned, written', hbytes, -, hprefix⟩ := h
    rw [List.append_nil] at hbytes
    rw [← hbytes]
    exact ⟨howned, hprefix⟩

/-- While the source is unchanged, what was copied and what is to be written are the front of
its content. -/
def Copying (upload : WriteUpload) (content : List UInt8) (descriptor changed : ℕ)
    (rest : List UInt8) (offset : ℕ) (w : World) : Prop :=
  Owned upload content w ∧ ((w.files.inodes descriptor).changed = changed →
    ∃ done, done.length = offset ∧ done <+: bytesOf upload w ∧ done ++ rest <+: content)

variable {descriptor : ℕ} {expected : Stat}

lemma stable_copying (hexpected : upload.expectedTarget = some (descriptor, expected))
    {rest : List UInt8} {offset : ℕ} :
    Stable (Copying upload content descriptor expected.changed rest offset) where
  interfere w action _ h := by
    refine ⟨h.1.interfere, fun hunchanged => ?_⟩
    rw [bytesOf_interfere h.1]
    have hv := h.1.validated descriptor expected hexpected
    refine h.2 ?_
    by_cases hplain : isReserved action.entry.name = true
    · rwa [interfere_of_reserved hplain] at hunchanged
    · rw [interfere_of_plain (by simpa using hplain)] at hunchanged
      dsimp only at hunchanged
      rcases External.inodes_apply action w.clock w.files
        (Nat.ne_of_lt hv.lt) with hsame | hclock
      · rwa [hsame] at hunchanged
      · have hold := hv.old
        omega
  turns w turn turns hturns h :=
    ⟨((stable_owned fun _ => True).turns w turn turns hturns ⟨h.1, trivial⟩).1, h.2⟩

lemma copying_written {rest : List UInt8} {offset k : ℕ} (hk : k ≤ rest.length)
    (hexpected : upload.expectedTarget = some (descriptor, expected))
    (h : Copying upload content descriptor expected.changed rest offset w) :
    Copying upload content descriptor expected.changed (rest.drop k) (offset + k)
      (written upload.temporaryFile (rest.take k) offset w) := by
  have hne := (h.1.validated descriptor expected hexpected).ne
  refine ⟨owned_written h.1, fun hunchanged => ?_⟩
  rw [written, Files.inodes_setInode, Function.update_of_ne hne] at hunchanged
  obtain ⟨done, rfl, hdone, hcontent⟩ := h.2 hunchanged
  refine ⟨done ++ rest.take k, ?_, ?_, ?_⟩
  · simp only [List.length_append, List.length_take]
    omega
  · rw [bytesOf_written]
    exact isPrefix_overwrite hdone
  · rwa [List.append_assoc, List.take_append_drop]

lemma copying_read {offset k : ℕ}
    (hexpected : upload.expectedTarget = some (descriptor, expected))
    (h : Copying upload content descriptor expected.changed [] offset w) :
    Copying upload content descriptor expected.changed
      (((w.files.inodes descriptor).bytes.drop offset).take k) offset w := by
  refine ⟨h.1, fun hunchanged => ?_⟩
  obtain ⟨done, rfl, hdone, hcontent⟩ := h.2 hunchanged
  refine ⟨done, rfl, hdone, ?_⟩
  rw [(h.1.validated descriptor expected hexpected).unchanged hunchanged]
  rw [List.append_nil] at hcontent
  obtain ⟨rest, rfl⟩ := hcontent
  rw [List.drop_left]
  exact (List.prefix_append_right_inj done).mpr (List.take_prefix k rest)

lemma triple_copyPrefix (hexpected : upload.expectedTarget = some (descriptor, expected)) :
    Triple (Owned upload content) (copyExact descriptor upload.temporaryFile expected.size)
      (fun _ => Copying upload content descriptor expected.changed [] expected.size)
      fun _ => Owned upload content :=
  triple_weaken (triple_copyExact
    (I := Copying upload content descriptor expected.changed) expected.size
    (fun _ _ => stable_copying hexpected) (fun _ _ _ => copying_read hexpected)
    (fun _ _ _ _ hk => copying_written hk hexpected) fun _ _ _ _ h => h.1)
    (fun _ h => ⟨h, fun _ => ⟨[], rfl, List.nil_prefix, List.nil_prefix⟩⟩) (fun _ _ h => h)
    fun _ _ h => h

/-- A copy whose source has not changed meanwhile is the content that was validated. -/
lemma triple_afterCopy (hexpected : upload.expectedTarget = some (descriptor, expected)) :
    Triple (Copying upload content descriptor expected.changed [] expected.size)
      (descriptorMetadata descriptor)
      (fun afterCopy w => Owned upload content w ∧
        (samePrecommitSnapshot expected afterCopy = true →
          content.length = expected.size ∧ content <+: bytesOf upload w))
      fun _ => Owned upload content := by
  refine triple_weaken (triple_descriptorMetadata (stable_copying hexpected) descriptor)
    (fun _ h => h) (fun afterCopy w h => ?_) fun _ _ h => h.1
  obtain ⟨hcopying, rfl⟩ := h
  refine ⟨hcopying.1, fun hsame => ?_⟩
  simp only [samePrecommitSnapshot, sameSnapshot, Bool.and_eq_true, decide_eq_true_eq] at hsame
  have hsize : expected.size = (w.files.inodes descriptor).bytes.length := hsame.1.1.2
  have hchanged : (w.files.inodes descriptor).changed = expected.changed := hsame.2.symm
  have hcontent := (hcopying.1.validated descriptor expected hexpected).unchanged hchanged
  obtain ⟨done, hdone, hbytes, hfront⟩ := hcopying.2 hchanged
  rw [hcontent] at hsize
  rw [List.append_nil] at hfront
  rw [← hfront.eq_of_length (hdone.trans hsize)]
  exact ⟨hdone, hbytes⟩

end Sys

/-! ## Moving -/

variable {other : ℕ} {source destination : Entry}

lemma Owned.ne (h : Owned upload content w) : upload.temporary ≠ upload.target :=
  ne_of_reserved h.reserved h.plain

/-- After an exchange the validated file is not at the target unless the temporary file was
there before. -/
lemma Owned.exchange (h : Owned upload content w)
    (htemporary : w.files.names upload.temporary = some file)
    (htarget : w.files.names upload.target = some other) : Owned upload content { w with
      files := (((w.files.touch file w.clock).touch other w.clock).setName upload.temporary
        (some other)).setName upload.target (some file)
      clock := w.clock + 1
      renamed := true } := by
  have hne := h.ne
  have hnamed := h.named
  rw [htemporary, htarget, Option.some.injEq, Option.some.injEq] at hnamed
  refine ⟨h.lt, by simp [h.staged], h.reserved, h.plain, by simpa using h.links_le,
    fun hone => ?_, fun descriptor expected hexpected => ?_⟩
  · simp only [Files.inodes_setName, Files.links_touch] at hone
    simpa [hne] using (hnamed hone).symm
  · have hv := h.validated descriptor expected hexpected
    have haway := hv.away
    rw [htemporary, htarget, Option.some.injEq, ne_eq, Option.some.injEq] at haway
    refine ⟨hv.file, hv.ne, hv.lt, Nat.lt_succ_of_lt hv.old, fun hunchanged => ?_, ?_⟩
    · have hold := hv.old
      simp only [Files.inodes_setName] at hunchanged ⊢
      rw [Files.bytes_touch, Files.bytes_touch]
      refine hv.unchanged ?_
      rw [Files.inodes_touch_of_changed (by omega)] at hunchanged
      rwa [Files.inodes_touch_of_changed (by omega)] at hunchanged
    · simp only [Files.names_setName, Files.inodes_setName, Files.links_touch,
        Function.update_self, Function.update_of_ne hne, Option.some.injEq, ne_eq]
      have hnotOne : file ≠ upload.temporaryFile → other ≠ upload.temporaryFile →
          (w.files.inodes upload.temporaryFile).links = 0 := by
        intro hfile hother
        have hle := h.links_le
        have hnot : (w.files.inodes upload.temporaryFile).links ≠ 1 := fun hone =>
          (hnamed hone).elim hfile hother
        omega
      have hdescriptor := hv.ne
      by_cases hother : other = upload.temporaryFile
      · exact .inl hother
      by_cases hfile : file = descriptor
      · refine .inr (.inr (hnotOne ?_ hother))
        rwa [hfile]
      · exact .inr (.inl hfile)

/-- A file that is moved between the two names of an upload that validated nothing. -/
lemma Owned.move (h : Owned upload content w) (hnone : upload.expectedTarget = none)
    (hnames : source = upload.temporary ∧ destination = upload.target ∨
      source = upload.target ∧ destination = upload.temporary)
    (hsource : w.files.names source = some file) (hfree : w.files.names destination = none) :
    Owned upload content { w with
      files := ((w.files.touch file w.clock).setName source none).setName destination (some file)
      clock := w.clock + 1
      renamed := true } := by
  have hne := h.ne
  refine ⟨h.lt, by simp [h.staged], h.reserved, h.plain, by simpa using h.links_le,
    fun hone => ?_, fun descriptor expected hexpected => ?_⟩
  · simp only [Files.inodes_setName, Files.links_touch] at hone
    have hnamed := h.named hone
    rcases hnames with ⟨rfl, rfl⟩ | ⟨rfl, rfl⟩
    · rw [hsource, hfree] at hnamed
      simpa [hne] using hnamed
    · rw [hsource, hfree] at hnamed
      simpa [hne.symm] using hnamed
  · rw [hnone] at hexpected
    cases hexpected

/-- The temporary name goes. -/
lemma Owned.dropName (h : Owned upload content w) : Owned upload content { w with
      files := w.files.dropName upload.temporary w.clock
      clock := w.clock + 1 } := by
  have hne := h.ne
  cases htemporary : w.files.names upload.temporary with
  | none =>
    rw [Files.dropName, htemporary]
    exact ⟨h.lt, h.staged, h.reserved, h.plain, h.links_le, h.named, fun descriptor expected
      hexpected => by
        have hv := h.validated descriptor expected hexpected
        exact ⟨hv.file, hv.ne, hv.lt, Nat.lt_succ_of_lt hv.old, hv.unchanged, hv.away⟩⟩
  | some file =>
    have hnamed := h.named
    rw [htemporary, Option.some.injEq] at hnamed
    rw [Files.dropName, htemporary]
    by_cases hfile : file = upload.temporaryFile
    · -- the temporary file goes with its name
      subst hfile
      have hle := h.links_le
      refine ⟨h.lt, by simp [h.staged], h.reserved, h.plain, ?_, fun hone => ?_,
        fun descriptor expected hexpected => ?_⟩
      · simp only [Files.inodes_setName, Files.inodes_setInode, Function.update_self]
        omega
      · simp only [Files.inodes_setName, Files.inodes_setInode, Function.update_self] at hone
        omega
      · have hv := h.validated descriptor expected hexpected
        refine ⟨hv.file, hv.ne, hv.lt, Nat.lt_succ_of_lt hv.old, ?_, .inr (.inr ?_)⟩
        · simpa [hv.ne] using hv.unchanged
        · simp only [Files.inodes_setName, Files.inodes_setInode, Function.update_self]
          omega
    · refine ⟨h.lt, ?_, h.reserved, h.plain, ?_, fun hone => ?_,
        fun descriptor expected hexpected => ?_⟩
      · simpa [Ne.symm hfile] using h.staged
      · simpa [Ne.symm hfile] using h.links_le
      · refine .inr ?_
        simp only [Files.inodes_setName, Files.inodes_setInode,
          Function.update_of_ne (Ne.symm hfile)] at hone
        simpa [hne.symm] using (hnamed hone).resolve_left hfile
      · have hv := h.validated descriptor expected hexpected
        have hold := hv.old
        have haway := hv.away
        rw [htemporary, Option.some.injEq] at haway
        refine ⟨hv.file, hv.ne, hv.lt, Nat.lt_succ_of_lt hv.old, fun hunchanged => ?_, .inr ?_⟩
        · by_cases hdescriptor : descriptor = file
          · subst hdescriptor
            simp only [Files.inodes_setName, Files.inodes_setInode, Function.update_self]
              at hunchanged
            omega
          · simp only [Files.inodes_setName, Files.inodes_setInode,
              Function.update_of_ne hdescriptor] at hunchanged ⊢
            exact hv.unchanged hunchanged
        · simpa [Ne.symm hfile, hne.symm] using haway.resolve_left hfile

namespace Sys

open Prog

variable {bytes : List UInt8} {expected : Stat} {descriptor : ℕ} {snapshot : Bool}

/-- The temporary file of an upload with its bytes. -/
def Carries (upload : WriteUpload) (content bytes : List UInt8) (w : World) : Prop :=
  Owned upload content w ∧ bytesOf upload w = bytes

lemma stable_carries : Stable (Carries upload content bytes) := stable_owned (· = bytes)

/-- The temporary file stands under the name of its target, and nobody interferes. -/
structure Committed (upload : WriteUpload) (bytes : List UInt8) (w : World) : Prop where
  name : w.files.names upload.target = some upload.temporaryFile
  bytes : bytesOf upload w = bytes
  renamed : w.renamed = true

/-- What was moved, while nobody interferes. -/
lemma stable_renamed {φ : Files → Prop} :
    Stable fun w => Carries upload content bytes w ∧ w.renamed = true ∧ φ w.files where
  interfere w action hrenamed h := by
    rw [h.2.1] at hrenamed
    cases hrenamed
  turns w turn turns hturns h := ⟨stable_carries.turns w turn turns hturns h.1, h.2⟩

/-- The exchange, where the validated file is not at the target without the temporary file at
its own name: afterwards the validated file is under the temporary name only if the temporary
file is at the target. -/
lemma triple_exchange :
    Triple (fun w => Carries upload content bytes w ∧
        (w.files.names upload.temporary = some upload.temporaryFile ∨
          w.files.names upload.target ≠ some descriptor) ∧ descriptor < w.nextFile)
      (renameExchange upload.temporary upload.target)
      (fun _ w => Carries upload content bytes w ∧ w.renamed = true ∧
        (w.files.names upload.temporary = some descriptor →
          w.files.names upload.target = some upload.temporaryFile))
      fun _ => Carries upload content bytes := by
  have hstable : Stable fun w => Carries upload content bytes w ∧
      (w.files.names upload.temporary = some upload.temporaryFile ∨
        w.files.names upload.target ≠ some descriptor) ∧ descriptor < w.nextFile := by
    refine ⟨fun w action hrenamed h => ⟨stable_carries.interfere w action hrenamed h.1, ?_⟩,
      fun w turn turns hturns h => ⟨stable_carries.turns w turn turns hturns h.1, h.2⟩⟩
    by_cases hplain : isReserved action.entry.name = true
    · rw [interfere_of_reserved hplain]
      exact h.2
    have hplain : isReserved action.entry.name = false := by simpa using hplain
    rw [interfere_of_plain hplain]
    obtain ⟨htemporary, -⟩ := h.1.1.apply hplain
    refine ⟨?_, Nat.lt_succ_of_lt h.2.2⟩
    dsimp only
    rw [htemporary]
    exact h.2.1.imp_right fun htarget => External.names_apply_ne htarget (Nat.ne_of_lt h.2.2)
  refine triple_call hstable (fun _ _ h => h.1) fun turn w h => ?_
  obtain ⟨hcarries, haway, -⟩ := h
  cases htemporary : w.files.names upload.temporary with
  | none => exact hcarries
  | some file =>
    cases htarget : w.files.names upload.target with
    | none => exact hcarries
    | some other =>
      have hne := hcarries.1.ne
      refine ⟨⟨hcarries.1.exchange htemporary htarget, ?_⟩, rfl, ?_⟩
      · rw [← hcarries.2]
        simp [bytesOf]
      · rw [htemporary, htarget] at haway
        simp only [Files.names_setName, Function.update_self, Function.update_of_ne hne]
        intro hother
        exact haway.resolve_right (fun h => h hother)

lemma keeps_exchange : Keeps (Carries upload content bytes)
    (renameExchange upload.temporary upload.target) := by
  refine triple_call stable_carries (fun _ _ h => h) fun turn w hcarries => ?_
  cases htemporary : w.files.names upload.temporary with
  | none => exact hcarries
  | some file =>
    cases htarget : w.files.names upload.target with
    | none => exact hcarries
    | some other =>
      refine ⟨hcarries.1.exchange htemporary htarget, ?_⟩
      rw [← hcarries.2]
      simp [bytesOf]

lemma carries_dropName (h : Carries upload content bytes w) :
    Carries upload content bytes { w with
      files := w.files.dropName upload.temporary w.clock
      clock := w.clock + 1 } := by
  refine ⟨h.1.dropName, ?_⟩
  rw [← h.2, bytesOf, bytesOf, Files.dropName]
  split
  · rename_i file _
    by_cases hfile : upload.temporaryFile = file
    · subst hfile
      simp
    · simp [hfile]
  · rfl

lemma carries_unlink (h : Carries upload content bytes w) :
    Carries upload content bytes (unlink upload.temporary w).2 := by
  have hunlink : Keeps (Carries upload content bytes) (unlinkChecked upload.temporary) := by
    refine triple_call stable_carries (fun _ _ h => h) fun turn w h => ?_
    cases w.files.names upload.temporary with
    | none => exact h
    | some file => exact carries_dropName h
  have hrun := hunlink w h
  unfold unlink
  cases hrun' : unlinkChecked upload.temporary w with
  | mk outcome w' =>
    rw [hrun'] at hrun
    cases outcome with
    | ok _ => exact hrun
    | err _ => exact hrun
    | panic => exact hrun.elim

/-- An exchange that succeeds has put the temporary file at its target; one that fails has not
touched its bytes. -/
lemma triple_exchangeAndRemove_carries (hfile : expected.file = descriptor) :
    Triple (fun w => Carries upload content bytes w ∧
        (w.files.names upload.temporary = some upload.temporaryFile ∨
          w.files.names upload.target ≠ some descriptor) ∧ descriptor < w.nextFile ∧
        descriptor ≠ upload.temporaryFile)
      (exchangeAndRemove upload.temporary upload.target expected snapshot)
      (fun _ => Committed upload bytes) fun _ => Carries upload content bytes := by
  intro w hw
  obtain ⟨hcarries, haway, hlt, hne⟩ := hw
  refine triple_bind (triple_onError triple_exchange fun _ _ => carries_unlink) (fun _ => ?_) w
    ⟨hcarries, haway, hlt⟩
  refine triple_bind (Q := fun swapped w => (∀ metadata, swapped = ok metadata →
      w.files.names upload.temporary = some metadata.file) ∧
        Carries upload content bytes w ∧ w.renamed = true ∧
          (w.files.names upload.temporary = some descriptor →
            w.files.names upload.target = some upload.temporaryFile)) ?_ fun swapped => ?_
  · refine triple_attempt (triple_call
      (stable_renamed (φ := fun files => files.names upload.temporary = some descriptor →
        files.names upload.target = some upload.temporaryFile))
      (fun w code h => ⟨fun _ herr => by simp at herr, h⟩) fun turn w h => ?_)
    cases htemporary : w.files.names upload.temporary with
    | none => exact ⟨fun _ herr => by simp at herr, h⟩
    | some file =>
      refine ⟨fun metadata hmetadata => ?_, h⟩
      cases hmetadata
      exact htemporary
  dsimp only
  split_ifs with hvalid
  · refine triple_bind (Q := fun _ => Carries upload content bytes) (triple_attempt
      (triple_weaken keeps_exchange (fun _ h => h.2.1) (fun _ _ h => h) fun _ _ h => h))
      fun rollback => ?_
    split
    · exact triple_fail _ fun _ h => h
    · exact triple_fail _ fun _ h => h
  · -- the file that was moved away is the validated one
    intro w h
    obtain ⟨hswapped, hcarries, hrenamed, htarget⟩ := h
    have hname : w.files.names upload.temporary = some descriptor ∧
        w.files.names upload.target = some upload.temporaryFile := by
      cases swapped with
      | ok metadata =>
        have hsame : sameFile expected metadata = true := by
          simp only [Bool.not_eq_true', Bool.not_eq_false, isExpected] at hvalid
          split_ifs at hvalid
          · simp only [sameSnapshot, Bool.and_eq_true] at hvalid
            exact hvalid.1.1
          · exact hvalid
        simp only [sameFile, Bool.and_eq_true, decide_eq_true_eq] at hsame
        have hmetadata : w.files.names upload.temporary = some descriptor := by
          rw [hswapped metadata rfl, ← hsame.1.1, hfile]
        exact ⟨hmetadata, htarget hmetadata⟩
      | err code => simp at hvalid
      | panic => simp at hvalid
    refine triple_call (stable_renamed (φ := fun files => files.names upload.temporary =
      some descriptor ∧ files.names upload.target = some upload.temporaryFile))
      (fun _ _ h => h.1) (fun turn w h => ?_) w ⟨hcarries, hrenamed, hname⟩
    obtain ⟨hcarries, hrenamed, htemporary, htarget⟩ := h
    rw [htemporary]
    refine ⟨?_, (carries_dropName hcarries).2, hrenamed⟩
    rw [Files.names_dropName, Function.update_of_ne hcarries.1.ne.symm, htarget]

/-- A created file is looked at under the name of its target. -/
lemma triple_commitCreated_carries {metadata : Stat} (hnone : upload.expectedTarget = none)
    (hfile : metadata.file = upload.temporaryFile) :
    Triple (Carries upload content bytes) (WriteStreams.commitCreated upload metadata)
      (fun _ => Committed upload bytes) fun _ => Carries upload content bytes := by
  have hmove : ∀ source destination, (source = upload.temporary ∧ destination = upload.target ∨
      source = upload.target ∧ destination = upload.temporary) →
      Triple (Carries upload content bytes) (renameNoReplace source destination)
        (fun _ w => Carries upload content bytes w ∧ w.renamed = true)
        fun _ => Carries upload content bytes := by
    intro source destination hnames
    refine triple_call stable_carries (fun _ _ h => h) fun turn w h => ?_
    cases hsource : w.files.names source with
    | none => exact h
    | some file =>
      cases hdestination : w.files.names destination with
      | some _ => exact h
      | none =>
        refine ⟨⟨h.1.move hnone hnames hsource hdestination, ?_⟩, rfl⟩
        rw [← h.2]
        simp [bytesOf]
  refine triple_bind (hmove _ _ (.inl ⟨rfl, rfl⟩)) fun _ => ?_
  refine triple_bind (Q := fun committed w => Carries upload content bytes w ∧
    w.renamed = true ∧ w.files.names upload.target = some committed.file) ?_ fun committed => ?_
  · intro w hw
    refine triple_call (stable_renamed (φ := fun _ => True)) (fun _ _ h => h.1)
      (fun turn w h => ?_) w ⟨hw.1, hw.2, trivial⟩
    cases htarget : w.files.names upload.target with
    | none => exact h.1
    | some file => exact ⟨h.1, h.2.1, htarget⟩
  split_ifs with hsame
  · refine triple_bind (Q := fun _ => Carries upload content bytes) (triple_attempt
      (triple_weaken (hmove _ _ (.inr ⟨rfl, rfl⟩)) (fun _ h => h.1) (fun _ _ h => h.1)
        fun _ _ h => h)) fun _ => triple_fail _ fun _ h => h
  · refine triple_pure _ fun w hw => ⟨?_, hw.1.2, hw.2.1⟩
    simp only [Bool.not_eq_true', Bool.not_eq_false, sameFile, Bool.and_eq_true,
      decide_eq_true_eq] at hsame
    rw [hw.2.2, ← hsame.1.1, hfile]

end Sys

/-! ## The stream -/

namespace WriteStreams

open Prog Sys

variable {s : WriteBroker} {resourceId : ℕ} {accepted : List UInt8} {request : BoundRequest}

/-- The sizes that a stream has checked when it opened. -/
structure Sized (upload : WriteUpload) : Prop where
  fits : upload.baseBytes + upload.expectedBytes ≤ upload.scope.maximumFileBytes
  created : upload.operation = .create → upload.expectedTarget = none
  base : upload.operation ≠ .append → upload.baseBytes = 0
  source : upload.operation = .append → ∃ descriptor expected,
    upload.expectedTarget = some (descriptor, expected) ∧ expected.size = upload.baseBytes
  uncommitted : upload.committed = false
  unclosed : upload.closed = false

/-- The part of a content that the operation of a stream keeps. -/
def kept (upload : WriteUpload) (content : List UInt8) : List UInt8 :=
  if upload.operation = .append then content else []

/-- An upload after some bytes were accepted. -/
def received (upload : WriteUpload) (count : ℕ) (prefixCopied : Bool) : WriteUpload :=
  { upload with receivedBytes := count, prefixCopied := prefixCopied }

/-- The temporary file starts with the kept content and the accepted bytes, once the kept
content was copied. -/
structure Filled (upload : WriteUpload) (content accepted : List UInt8) (prefixCopied : Bool)
    (w : World) : Prop where
  owned : Owned upload content w
  copied : prefixCopied = true → (kept upload content).length = upload.baseBytes ∧
    kept upload content ++ accepted <+: bytesOf upload w
  empty : prefixCopied = false → accepted = [] ∧ upload.operation = .append

/-- A stream that takes chunks. -/
def Receiving (resourceId : ℕ) (upload : WriteUpload) (content accepted : List UInt8)
    (s : WriteBroker) : Prop :=
  accepted.length ≤ upload.expectedBytes ∧ ∃ prefixCopied,
    Holds resourceId (received upload accepted.length prefixCopied)
      (Filled upload content accepted prefixCopied) s

lemma stable_filled {prefixCopied : Bool} :
    Stable (Filled upload content accepted prefixCopied) where
  interfere w action hrenamed h := by
    refine ⟨h.owned.interfere, fun hcopied => ?_, h.empty⟩
    rw [bytesOf_interfere h.owned]
    exact h.copied hcopied
  turns w turn turns hturns h :=
    ⟨((stable_owned fun _ => True).turns w turn turns hturns ⟨h.owned, trivial⟩).1, h.copied,
      h.empty⟩

lemma triple_sys_at {α : Type} {P : World → Prop} {x : Sys α} {Q : α → World → Prop}
    {E : BrokerErrorCode → World → Prop} (h : Triple P x Q E) :
    Triple (Holds resourceId upload P) (sys x) (fun a => Holds resourceId upload (Q a))
      fun e => Holds resourceId upload (E e) :=
  triple_sys h fun uploads => uploads.get resourceId = some upload

lemma receiving_of_holds {prefixCopied : Bool}
    (hle : accepted.length ≤ upload.expectedBytes)
    (h : Holds resourceId (received upload accepted.length prefixCopied)
      (Filled upload content accepted prefixCopied) s) :
    Receiving resourceId upload content accepted s := ⟨hle, prefixCopied, h⟩

/-- The kept content is copied at most once, and before the first accepted byte. -/
lemma triple_prepare (hsized : Sized upload) (hle : accepted.length ≤ upload.expectedBytes)
    {prefixCopied : Bool} :
    Triple (Holds resourceId (received upload accepted.length prefixCopied)
        (Filled upload content accepted prefixCopied))
      (prepareStreamAppend resourceId (received upload accepted.length prefixCopied))
      (fun prepared s => prepared = received upload accepted.length true ∧
        Holds resourceId prepared (Filled upload content accepted true) s)
      fun _ => Receiving resourceId upload content accepted := by
  rw [prepareStreamAppend]
  cases prefixCopied with
  | true => exact triple_pure _ fun s h => ⟨rfl, h⟩
  | false =>
    rw [if_neg (by simp [received])]
    by_cases happend : upload.operation = .append
    swap
    · have hother : (received upload accepted.length false).operation ≠ .append := happend
      rw [if_pos hother]
      exact triple_fail _ fun s h => receiving_of_holds hle h
    have hsame : ¬(received upload accepted.length false).operation ≠ .append :=
      not_not.mpr happend
    rw [if_neg hsame]
    obtain ⟨descriptor, expected, hexpected, hsize⟩ := hsized.source happend
    refine triple_lift_bind okOr_ne_panic (fun _ _ _ h => receiving_of_holds hle h)
      fun found hfound => ?_
    obtain rfl : (descriptor, expected) = found :=
      Option.some.inj (hexpected.symm.trans (okOr_eq_ok.mp hfound))
    have hcopy : Triple (Filled upload content accepted false)
        (copyExact descriptor upload.temporaryFile upload.baseBytes)
        (fun _ w => Copying upload content descriptor expected.changed [] expected.size w ∧
          accepted = [])
        fun _ => Filled upload content accepted false := by
      intro w h
      rw [← hsize]
      exact (triple_copyPrefix hexpected w h.owned).weaken
        (fun _ _ hcopying => ⟨hcopying, (h.empty rfl).1⟩)
        fun _ _ howned => ⟨howned, fun h => by simp at h, h.empty⟩
    have hcheck : Triple (fun w => Copying upload content descriptor expected.changed []
          expected.size w ∧ accepted = []) (descriptorMetadata descriptor)
        (fun afterCopy w => Filled upload content accepted false w ∧
          (samePrecommitSnapshot expected afterCopy = true →
            Filled upload content accepted true w))
        fun _ => Filled upload content accepted false := by
      refine triple_assume fun hempty => ?_
      subst hempty
      refine triple_weaken (triple_afterCopy hexpected) (fun _ h => h) (fun afterCopy w h => ?_)
        fun _ w h => ⟨h, fun h => by simp at h, fun _ => ⟨rfl, happend⟩⟩
      refine ⟨⟨h.1, fun h => by simp at h, fun _ => ⟨rfl, happend⟩⟩, fun hsame => ?_⟩
      obtain ⟨hlength, hprefix⟩ := h.2 hsame
      refine ⟨h.1, fun _ => ?_, fun h => by simp at h⟩
      rw [kept, if_pos happend, List.append_nil]
      exact ⟨hlength.trans hsize, hprefix⟩
    refine triple_bind (triple_weaken (triple_sys_at hcopy) (fun _ h => h) (fun _ _ h => h)
      fun _ _ h => receiving_of_holds hle h) fun _ => ?_
    refine triple_bind (triple_weaken (triple_sys_at hcheck) (fun _ h => h) (fun _ _ h => h)
      fun _ _ h => receiving_of_holds hle h) fun afterCopy => ?_
    refine triple_lift_bind rejectIf_ne_panic
      (fun _ _ _ h => receiving_of_holds hle ⟨h.1.1, h.2⟩) fun _ hsame => ?_
    have hsame : samePrecommitSnapshot expected afterCopy = true := by
      simpa using rejectIf_eq_ok.mp hsame
    refine triple_bind (triple_setUpload (received upload accepted.length true)) fun _ => ?_
    exact triple_pure _ fun s h => ⟨rfl, h.1.2 hsame, h.2⟩

/-! ### Commands -/

lemma authorizeFor_chunk {chunk : FilesystemWriteStreamChunk} {endOffset : ℕ}
    (h : authorizeFor request resourceId upload = ok (.chunk chunk endOffset)) :
    FilesystemWriteStreamChunk.decode request.payload = ok chunk ∧
      chunk.offset.toNat = upload.receivedBytes ∧
        endOffset = upload.receivedBytes + chunk.bytes.length ∧
          endOffset ≤ upload.expectedBytes := by
  simp only [authorizeFor, authorizeCommand, Outcome.bind_eq_ok] at h
  obtain ⟨_, _, _, _, scope, _, _, _, h⟩ := h
  split_ifs at h
  · simp only [Outcome.bind_eq_ok, mapSchemaError_eq_ok, okOr_eq_ok, rejectIf_eq_ok,
      U64.add_eq_some, Bool.or_eq_false_iff, decide_eq_false_iff_not, not_not, not_lt,
      Outcome.pure_eq, Outcome.ok.injEq] at h
    obtain ⟨chunk', hdecode, _, ⟨-, hoffset⟩, endOffset', ⟨-, hend⟩, _, hle, heq⟩ := h
    cases heq
    exact ⟨hdecode, hoffset, by omega, hle⟩
  · simp at h

lemma authorizeFor_commit (h : authorizeFor request resourceId upload = ok .commit) :
    upload.receivedBytes = upload.expectedBytes := by
  simp only [authorizeFor, authorizeCommand, Outcome.bind_eq_ok] at h
  obtain ⟨_, _, _, _, scope, _, _, _, h⟩ := h
  split_ifs at h
  · simp at h
  · simp only [Outcome.bind_eq_ok, mapSchemaError_eq_ok, rejectIf_eq_ok, Bool.or_eq_false_iff,
      decide_eq_false_iff_not, not_not, Outcome.pure_eq] at h
    obtain ⟨_, _, _, ⟨-, hreceived⟩, _⟩ := h
    exact hreceived

/-- The bytes of a chunk. -/
def chunkBytes (request : BoundRequest) : List UInt8 :=
  match FilesystemWriteStreamChunk.decode request.payload with
  | ok chunk => chunk.bytes
  | _ => []

lemma triple_upload_receiving : Triple (Receiving resourceId upload content accepted)
    (WriteStreams.upload resourceId)
    (fun found s => ∃ prefixCopied, found = received upload accepted.length prefixCopied ∧
      accepted.length ≤ upload.expectedBytes ∧
        Holds resourceId found (Filled upload content accepted prefixCopied) s)
    fun _ => Receiving resourceId upload content accepted := by
  rintro s ⟨hle, prefixCopied, hfilled, hget⟩
  rw [WriteStreams.upload, bind_of_ok (a := some (received upload accepted.length prefixCopied))
    (t := s) (by rw [Prog.get, hget])]
  exact ⟨prefixCopied, rfl, hle, hfilled, hget⟩

/-- A chunk that is accepted follows the bytes before it; one that fails changes nothing that
counts. -/
lemma triple_chunk (hsized : Sized upload) (hconcerns : Concerns resourceId request)
    (hoperation : request.operation = filesystemWriteStreamChunkOperation) :
    Triple (Receiving resourceId upload content accepted) (writeUploadChunk request)
      (fun _ => Receiving resourceId upload content (accepted ++ chunkBytes request))
      fun _ => Receiving resourceId upload content accepted := by
  refine triple_lift_bind (mapSchemaError_ne_panic (FilesystemWriteStreamChunk.decode_ne_panic _))
    (fun _ _ _ h => h) fun decoded hdecoded => ?_
  have hid : decoded.resourceId.toNat = resourceId := by
    refine hconcerns _ ?_
    rw [commandResource, if_pos hoperation, hdecoded]
    rfl
  rw [hid]
  refine triple_bind triple_upload_receiving fun found => ?_
  rintro s ⟨prefixCopied, rfl, hle, hholds⟩
  refine triple_lift_bind (P := Holds resourceId _ (Filled upload content accepted prefixCopied))
    authorizeFor_ne_panic (fun _ _ _ h => receiving_of_holds hle h)
    (fun authorized hauthorized => ?_) s hholds
  cases authorized with
  | commit => exact triple_fail _ fun _ h => receiving_of_holds hle h
  | chunk chunk endOffset =>
    obtain ⟨hdecode, hoffset, hend, hfits⟩ := authorizeFor_chunk hauthorized
    have hbytes : chunkBytes request = chunk.bytes := by rw [chunkBytes, hdecode]
    have hlength : endOffset = (accepted ++ chunk.bytes).length := by
      rw [List.length_append]
      exact hend
    rw [hbytes]
    refine triple_bind (triple_prepare hsized hle) fun prepared => ?_
    rintro s ⟨rfl, hprepared⟩
    refine triple_lift_bind (P := Holds resourceId _ (Filled upload content accepted true))
      okOr_ne_panic (fun _ _ _ h => receiving_of_holds hle h) (fun offset hadd => ?_) s hprepared
    have hoffset : (kept upload content).length = upload.baseBytes →
        offset = (kept upload content ++ accepted).length := by
      intro hbase
      have hsum := (U64.add_eq_some.mp (okOr_eq_ok.mp hadd)).2
      rw [List.length_append, hbase, ← hsum, hoffset]
      rfl
    have hwrite : Triple (Filled upload content accepted true)
        (pwriteAllAt upload.temporaryFile chunk.bytes offset)
        (fun _ => Filled upload content (accepted ++ chunk.bytes) true)
        fun _ => Filled upload content accepted true := by
      intro w h
      obtain ⟨hbase, hprefix⟩ := h.copied rfl
      rw [hoffset hbase]
      refine (triple_append (kept upload content ++ accepted) chunk.bytes w
        ⟨h.owned, hprefix⟩).weaken (fun _ _ h => ?_) fun _ _ h => ?_
      · exact ⟨h.1, fun _ => ⟨hbase, by rw [← List.append_assoc]; exact h.2⟩,
          fun h => by simp at h⟩
      · exact ⟨h.1, fun _ => ⟨hbase, h.2⟩, fun h => by simp at h⟩
    refine triple_bind (triple_weaken (triple_sys_at hwrite) (fun _ h => h) (fun _ _ h => h)
      fun _ _ h => receiving_of_holds hle h) fun _ => ?_
    refine triple_weaken (triple_setUpload (received upload endOffset true)) (fun _ h => h)
      (fun _ s h => ?_) fun _ _ h => h
    rw [hlength] at h
    exact ⟨hlength ▸ hfits, true, h⟩

/-- A stream that takes no commands any more: it was dropped, closed or committed. -/
def Finished (resourceId : ℕ) (accepted : List UInt8) (s : WriteBroker) : Prop :=
  ∀ upload, s.uploads.get resourceId = some upload →
    (upload.closed || upload.committed) = true ∧ upload.receivedBytes = accepted.length ∧
      accepted.length ≤ upload.expectedBytes

lemma finished_of_holds {P : World → Prop} (h : Holds resourceId upload P s)
    (hend : (upload.closed || upload.committed) = true)
    (hreceived : upload.receivedBytes = accepted.length)
    (hle : accepted.length ≤ upload.expectedBytes) : Finished resourceId accepted s := by
  intro upload' hget
  rw [h.2] at hget
  cases hget
  exact ⟨hend, hreceived, hle⟩

/-- The temporary file before it is put in place. -/
lemma triple_validate :
    Triple (Filled upload content accepted true)
      (validateRegularFile upload.temporaryFile upload.scope.maximumFileBytes)
      (fun metadata w => Filled upload content accepted true w ∧
        metadata.file = upload.temporaryFile ∧ metadata.size = (bytesOf upload w).length ∧
          (w.files.inodes upload.temporaryFile).links = 1)
      fun _ => Filled upload content accepted true := by
  refine triple_weaken (triple_validateRegularFile stable_filled _ _) (fun _ h => h)
    (fun metadata w h => ?_) fun _ _ h => h
  obtain ⟨hfilled, rfl, -, hlinks, -⟩ := h
  exact ⟨hfilled, rfl, rfl, hlinks⟩

/-- Putting the file in place, once it was found to have all its bytes and one link. -/
lemma triple_place_carries (hsized : Sized upload) {metadata : Stat} {bytes : List UInt8}
    (hfile : metadata.file = upload.temporaryFile) :
    Triple (fun w => Carries upload content bytes w ∧
        (w.files.inodes upload.temporaryFile).links = 1)
      (place upload metadata) (fun _ => Committed upload bytes)
      fun _ => Carries upload content bytes := by
  have hexchange : ∀ descriptor expected snapshot,
      upload.expectedTarget = some (descriptor, expected) →
        Triple (fun w => Carries upload content bytes w ∧
            (w.files.inodes upload.temporaryFile).links = 1)
          (exchangeAndRemove upload.temporary upload.target expected snapshot)
          (fun _ => Committed upload bytes) fun _ => Carries upload content bytes := by
    rintro descriptor expected snapshot hexpected w ⟨hcarries, hlinks⟩
    have hv := hcarries.1.validated descriptor expected hexpected
    refine triple_exchangeAndRemove_carries hv.file w ⟨hcarries, ?_, hv.lt, hv.ne⟩
    rcases hv.away with htemporary | htarget | hzero
    · exact .inl htemporary
    · exact .inr htarget
    · omega
  rw [place]
  split
  · rename_i hcreate
    exact triple_weaken (triple_commitCreated_carries (hsized.created hcreate) hfile)
      (fun _ h => h.1) (fun _ _ h => h) fun _ _ h => h
  · refine triple_lift_bind okOr_ne_panic (fun _ _ _ h => h.1) fun found hfound => ?_
    exact hexchange found.1 found.2 false (okOr_eq_ok.mp hfound)
  · refine triple_lift_bind okOr_ne_panic (fun _ _ _ h => h.1) fun found hfound => ?_
    exact hexchange found.1 found.2 true (okOr_eq_ok.mp hfound)

lemma stable_committed {bytes : List UInt8} : Stable (Committed upload bytes) where
  interfere w action hrenamed h := by
    rw [h.renamed] at hrenamed
    cases hrenamed
  turns w turn turns hturns h := ⟨h.name, h.bytes, h.renamed⟩

/-- A commit that succeeds has put the kept content and the accepted bytes in place. -/
lemma triple_commit (hsized : Sized upload) (hconcerns : Concerns resourceId request)
    (hoperation : request.operation = filesystemWriteStreamCommitOperation) :
    Triple (Receiving resourceId upload content accepted) (commitUpload request)
      (fun _ s => (kept upload content ++ accepted).length =
          upload.baseBytes + upload.expectedBytes ∧ accepted.length ≤ upload.expectedBytes ∧
        Holds resourceId { received upload accepted.length true with committed := true }
          (Committed upload (kept upload content ++ accepted)) s)
      fun _ s => Receiving resourceId upload content accepted s ∨
        Finished resourceId accepted s := by
  refine triple_lift_bind (mapSchemaError_ne_panic
    (map_ne_panic.mpr (decodeResourceId_ne_panic _ _))) (fun _ _ _ h => .inl h)
    fun decoded hdecoded => ?_
  have hid : decoded.resourceId.toNat = resourceId := by
    refine hconcerns _ ?_
    rw [commandResource, if_neg (by rw [hoperation]; decide), if_pos hoperation, hdecoded]
    rfl
  rw [hid]
  refine triple_bind (triple_weaken triple_upload_receiving (fun _ h => h) (fun _ _ h => h)
    fun _ _ h => .inl h) fun found => ?_
  rintro s ⟨prefixCopied, rfl, hle, hholds⟩
  have hreceiving : ∀ {prefixCopied s}, Holds resourceId
      (received upload accepted.length prefixCopied)
      (Filled upload content accepted prefixCopied) s →
        Receiving resourceId upload content accepted s ∨ Finished resourceId accepted s :=
    fun h => .inl (receiving_of_holds hle h)
  refine triple_lift_bind (P := Holds resourceId _ (Filled upload content accepted prefixCopied))
    authorizeFor_ne_panic (fun _ _ _ h => hreceiving h) (fun authorized hauthorized => ?_) s hholds
  cases authorized with
  | chunk chunk endOffset => exact triple_fail _ fun _ h => hreceiving h
  | commit =>
    have hall : accepted.length = upload.expectedBytes := authorizeFor_commit hauthorized
    refine triple_bind (triple_weaken (triple_sys_at (keeps_checkCancelled stable_filled))
      (fun _ h => h) (fun _ _ h => h) fun _ _ h => hreceiving h) fun _ => ?_
    refine triple_bind (triple_weaken (triple_prepare hsized hle) (fun _ h => h) (fun _ _ h => h)
      fun _ _ h => .inl h) fun prepared => ?_
    rintro s ⟨rfl, hprepared⟩
    refine triple_bind (triple_weaken (triple_sys_at (keeps_fdatasync stable_filled _))
      (fun _ h => h) (fun _ _ h => h) fun _ _ h => hreceiving h) (fun _ => ?_) s hprepared
    refine triple_bind (triple_weaken (triple_sys_at (keeps_checkCancelled stable_filled))
      (fun _ h => h) (fun _ _ h => h) fun _ _ h => hreceiving h) fun _ => ?_
    refine triple_bind (triple_weaken (triple_sys_at (keeps_readClosed stable_filled))
      (fun _ h => h) (fun _ _ h => h) fun _ _ h => hreceiving h) fun closed => ?_
    split_ifs
    · refine triple_bind (triple_setUpload
        { received upload accepted.length true with closed := true }) fun _ => ?_
      exact triple_fail _ fun _ h => .inr (finished_of_holds h rfl rfl hle)
    refine triple_bind (triple_weaken (triple_sys_at (@triple_validate upload content accepted))
      (fun _ h => h) (fun _ _ h => h) fun _ _ h => hreceiving h) fun metadata => ?_
    refine triple_lift_bind okOr_ne_panic (fun _ _ _ h => hreceiving ⟨h.1.1, h.2⟩)
      fun size hadd => ?_
    refine triple_lift_bind rejectIf_ne_panic (fun _ _ _ h => hreceiving ⟨h.1.1, h.2⟩)
      fun _ hequal => ?_
    rintro s ⟨⟨hfilled, hfile, hsize, hlinks⟩, hget⟩
    -- the file has as many bytes as were kept and accepted, so it has no others
    obtain ⟨hbase, hfront⟩ := hfilled.copied rfl
    have hsum : size = upload.baseBytes + upload.expectedBytes :=
      (U64.add_eq_some.mp (okOr_eq_ok.mp hadd)).2.symm
    have htotal : (kept upload content ++ accepted).length =
        upload.baseBytes + upload.expectedBytes := by
      rw [List.length_append, hbase, hall]
    have hbytes : bytesOf upload s.world = kept upload content ++ accepted := by
      have hmetadata : metadata.size = size := by simpa using rejectIf_eq_ok.mp hequal
      refine (hfront.eq_of_length ?_).symm
      rw [htotal, ← hsum, ← hmetadata, hsize]
    have hplace : Triple (fun w => Carries upload content (kept upload content ++ accepted) w ∧
          (w.files.inodes upload.temporaryFile).links = 1) (place upload metadata)
        (fun _ => Committed upload (kept upload content ++ accepted))
        fun _ => Filled upload content accepted true :=
      triple_weaken (triple_place_carries hsized hfile) (fun _ h => h) (fun _ _ h => h)
        fun _ w h => ⟨h.1, fun _ => ⟨hbase, by rw [h.2]⟩, fun h => by simp at h⟩
    refine triple_bind (triple_weaken (triple_sys_at (P := fun w => Carries upload content
      (kept upload content ++ accepted) w ∧ (w.files.inodes upload.temporaryFile).links = 1)
      hplace) (fun _ h => h) (fun _ _ h => h) fun _ _ h => hreceiving h) (fun _ => ?_) s
      ⟨⟨⟨hfilled.owned, hbytes⟩, hlinks⟩, hget⟩
    refine triple_bind (triple_setUpload
      { received upload accepted.length true with committed := true }) fun _ => ?_
    refine triple_bind (triple_weaken (triple_sys_at (keeps_syncDirectory stable_committed _))
      (fun _ h => h) (fun _ _ h => h)
      fun _ _ h => .inr (finished_of_holds h (by simp) rfl hle)) fun _ => ?_
    exact triple_pure _ fun s h => ⟨htotal, hle, h⟩

/-- What holds after a command of a stream that takes commands. -/
def Answered (resourceId : ℕ) (upload : WriteUpload) (content accepted : List UInt8)
    (request : BoundRequest) (s : WriteBroker) : Option FilesystemMutationResult → Prop
  | none => Receiving resourceId upload content (accepted ++ chunkBytes request) s
  | some _ => (kept upload content ++ accepted).length =
      upload.baseBytes + upload.expectedBytes ∧ accepted.length ≤ upload.expectedBytes ∧
    Holds resourceId { received upload accepted.length true with committed := true }
      (Committed upload (kept upload content ++ accepted)) s

lemma triple_execute_receiving (hsized : Sized upload) (hconcerns : Concerns resourceId request) :
    Triple (Receiving resourceId upload content accepted) (execute request)
      (fun receipt s => Answered resourceId upload content accepted request s receipt)
      fun _ s => Receiving resourceId upload content accepted s ∨
        Finished resourceId accepted s := by
  rw [execute]
  refine triple_bind (Q := fun _ => Receiving resourceId upload content accepted) ?_ fun _ => ?_
  · rintro s ⟨hle, prefixCopied, hholds⟩
    exact (triple_sys_at (keeps_checkCancelled stable_filled) s hholds).weaken
      (fun _ _ h => receiving_of_holds hle h) fun _ _ h => .inl (receiving_of_holds hle h)
  split_ifs with hchunk hcommit
  · refine triple_bind (triple_weaken (triple_chunk hsized hconcerns hchunk) (fun _ h => h)
      (fun _ _ h => h) fun _ _ h => .inl h) fun _ => ?_
    exact triple_pure _ fun _ h => h
  · refine triple_bind (triple_commit hsized hconcerns hcommit) fun receipt => ?_
    obtain ⟨bytes, hbytes⟩ := receipt.encode_ok
    rw [hbytes]
    exact triple_pure (some receipt) fun _ h => h
  · exact triple_fail _ fun _ h => .inl h

/-- No command of a finished stream succeeds. -/
lemma triple_execute_finished (hconcerns : Concerns resourceId request) :
    Triple (Finished resourceId accepted) (execute request) (fun _ _ => False)
      fun _ => Finished resourceId accepted := by
  have hupload : Triple (Finished resourceId accepted) (WriteStreams.upload resourceId)
      (fun found s => (found.closed || found.committed) = true ∧ Finished resourceId accepted s)
      fun _ => Finished resourceId accepted := by
    intro s hs
    cases hget : s.uploads.get resourceId with
    | none =>
      rw [WriteStreams.upload, bind_of_ok (a := none) (t := s) (by rw [Prog.get, hget])]
      exact hs
    | some upload =>
      rw [WriteStreams.upload, bind_of_ok (a := some upload) (t := s) (by rw [Prog.get, hget])]
      exact ⟨(hs upload hget).1, hs⟩
  have hauthorize : ∀ {upload : WriteUpload} {authorized},
      (upload.closed || upload.committed) = true →
        authorizeFor request resourceId upload ≠ ok authorized := by
    intro upload authorized hend h
    simp only [authorizeFor, requireOpenUpload, Outcome.bind_eq_ok, rejectIf_eq_ok] at h
    obtain ⟨_, hopen, _⟩ := h
    rw [hend] at hopen
    cases hopen
  have hstable : Stable fun _ => True := ⟨fun _ _ _ h => h, fun _ _ _ _ h => h⟩
  refine triple_bind (triple_weaken (triple_sys (keeps_checkCancelled hstable) fun uploads =>
    ∀ upload, uploads.get resourceId = some upload → (upload.closed || upload.committed) = true ∧
      upload.receivedBytes = accepted.length ∧ accepted.length ≤ upload.expectedBytes)
    (fun _ h => ⟨trivial, h⟩) (fun _ _ h => h.2) fun _ _ h => h.2) fun _ => ?_
  split_ifs with hchunk hcommit
  · refine triple_bind (Q := fun _ _ => False) ?_ fun _ _ h => h.elim
    refine triple_lift_bind (mapSchemaError_ne_panic
      (FilesystemWriteStreamChunk.decode_ne_panic _)) (fun _ _ _ h => h) fun decoded hdecoded => ?_
    have hid : decoded.resourceId.toNat = resourceId := by
      refine hconcerns _ ?_
      rw [commandResource, if_pos hchunk, hdecoded]
      rfl
    rw [hid]
    refine triple_bind hupload fun found => ?_
    rintro s ⟨hend, hs⟩
    exact triple_lift_bind authorizeFor_ne_panic (fun _ _ _ h => h)
      (fun _ h => absurd h (hauthorize hend)) s hs
  · refine triple_bind (Q := fun _ _ => False) ?_ fun _ _ h => h.elim
    refine triple_lift_bind (mapSchemaError_ne_panic
      (map_ne_panic.mpr (decodeResourceId_ne_panic _ _))) (fun _ _ _ h => h)
      fun decoded hdecoded => ?_
    have hid : decoded.resourceId.toNat = resourceId := by
      refine hconcerns _ ?_
      rw [commandResource, if_neg hchunk, if_pos hcommit, hdecoded]
      rfl
    rw [hid]
    refine triple_bind hupload fun found => ?_
    rintro s ⟨hend, hs⟩
    exact triple_lift_bind authorizeFor_ne_panic (fun _ _ _ h => h)
      (fun _ h => absurd h (hauthorize hend)) s hs
  · exact triple_fail _ fun _ h => h

/-! ### Runs -/

/-- The bytes that an event adds to the accepted ones. -/
def acceptedBy (resourceId : ℕ) (s : WriteBroker) : StreamEvent → List UInt8
  | .command request turns =>
    if (command resourceId request turns s).1 = ok none then chunkBytes request else []
  | .close _ => []

/-- The bytes of the chunks that a run accepts, in order. -/
def acceptedIn (resourceId : ℕ) (s : WriteBroker) : List StreamEvent → List UInt8
  | [] => []
  | event :: events =>
    acceptedBy resourceId s event ++ acceptedIn resourceId (step resourceId s event) events

/-- A command that names the stream. -/
def StreamEvent.Concerns (resourceId : ℕ) : StreamEvent → Prop
  | .command request _ => WriteStreams.Concerns resourceId request
  | .close _ => True

lemma finished_dropUpload : Finished resourceId accepted (dropUpload resourceId s) := by
  intro upload hget
  have hnone : (dropUpload resourceId s).uploads.get resourceId = none := by
    rw [dropUpload]
    cases hfound : s.uploads.get resourceId with
    | none => exact hfound
    | some found =>
      have hremove : (s.uploads.remove resourceId).get resourceId = none := by
        rw [BTreeMap.remove, BTreeMap.get_retain]
        simp
      dsimp only
      split_ifs
      · exact hremove
      · exact hremove
  rw [hnone] at hget
  cases hget

lemma receiving_withTurns (turns : List CallTurn)
    (h : Receiving resourceId upload content accepted s) :
    Receiving resourceId upload content accepted (withTurns turns s) := by
  obtain ⟨hle, prefixCopied, hfilled, hget⟩ := h
  obtain ⟨howned, hcopied, hempty⟩ := hfilled
  refine ⟨hle, prefixCopied, ⟨?_, hcopied, hempty⟩, hget⟩
  refine ⟨howned.lt, howned.staged, howned.reserved, howned.plain, howned.links_le, howned.named,
    fun descriptor expected hexpected => ?_⟩
  have hv := howned.validated descriptor expected hexpected
  exact ⟨hv.file, hv.ne, hv.lt, hv.old, hv.unchanged, hv.away⟩

/-- A stream takes commands, or is finished, after every event. -/
lemma alive_step (hsized : Sized upload) {event : StreamEvent}
    (hevent : event.Concerns resourceId)
    (h : Receiving resourceId upload content accepted s ∨ Finished resourceId accepted s) :
    Receiving resourceId upload content (accepted ++ acceptedBy resourceId s event)
        (step resourceId s event) ∨
      Finished resourceId (accepted ++ acceptedBy resourceId s event)
        (step resourceId s event) := by
  cases event with
  | close turns => exact .inr finished_dropUpload
  | command request turns =>
    rw [acceptedBy, step, command]
    cases hrun : execute request (withTurns turns s) with
    | mk outcome s' =>
      have halive : Receiving resourceId upload content
            (accepted ++ if outcome = ok none then chunkBytes request else []) s' ∨
          Finished resourceId
            (accepted ++ if outcome = ok none then chunkBytes request else []) s' := by
        rcases h with hreceiving | hfinished
        · have hends := triple_execute_receiving hsized hevent _
            (receiving_withTurns turns hreceiving)
          rw [hrun] at hends
          cases outcome with
          | panic => exact hends.elim
          | err code =>
            rw [if_neg (by simp), List.append_nil]
            exact hends
          | ok receipt =>
            cases receipt with
            | none =>
              rw [if_pos rfl]
              exact .inl hends
            | some receipt =>
              rw [if_neg (by simp), List.append_nil]
              exact .inr (finished_of_holds hends.2.2 (by simp) rfl hends.2.1)
        · have hends := triple_execute_finished hevent (withTurns turns s) hfinished
          rw [hrun] at hends
          cases outcome with
          | panic => exact hends.elim
          | err code =>
            rw [if_neg (by simp), List.append_nil]
            exact .inr hends
          | ok receipt => exact hends.elim
      by_cases hclosed : (s'.uploads.get resourceId).elim false WriteUpload.closed = true
      · simp only [hclosed, if_true]
        exact .inr finished_dropUpload
      · simp only [hclosed]
        exact halive

lemma alive_run (hsized : Sized upload) {events : List StreamEvent}
    (hevents : ∀ event ∈ events, event.Concerns resourceId)
    (h : Receiving resourceId upload content accepted s ∨ Finished resourceId accepted s) :
    Receiving resourceId upload content (accepted ++ acceptedIn resourceId s events)
        (events.foldl (step resourceId) s) ∨
      Finished resourceId (accepted ++ acceptedIn resourceId s events)
        (events.foldl (step resourceId) s) := by
  induction events generalizing s accepted with
  | nil => simpa [acceptedIn] using h
  | cons event events ih =>
    obtain ⟨hevent, hevents⟩ := List.forall_mem_cons.mp hevents
    rw [acceptedIn, ← List.append_assoc, List.foldl_cons]
    exact ih hevents (alive_step hsized hevent h)

/-- A finished stream stays finished. -/
lemma finished_run {events : List StreamEvent}
    (hevents : ∀ event ∈ events, event.Concerns resourceId)
    (h : Finished resourceId accepted s) :
    Finished resourceId accepted (events.foldl (step resourceId) s) := by
  induction events generalizing s with
  | nil => exact h
  | cons event events ih =>
    obtain ⟨hevent, hevents⟩ := List.forall_mem_cons.mp hevents
    refine ih hevents ?_
    cases event with
    | close turns => exact finished_dropUpload
    | command request turns =>
      have hends := triple_execute_finished hevent (withTurns turns s) h
      rw [step, command]
      cases hrun : execute request (withTurns turns s) with
      | mk outcome s' =>
        rw [hrun] at hends
        dsimp only
        split_ifs
        · exact finished_dropUpload
        · cases outcome with
          | panic => exact hends.elim
          | err code => exact hends
          | ok receipt => exact hends.elim

/-! ### Opening -/

/-- The files that have names were made and changed in the past. -/
def Dated (w : World) : Prop :=
  ∀ entry file, w.files.names entry = some file →
    file < w.nextFile ∧ (w.files.inodes file).changed < w.clock

/-- A file of the past. -/
def Past (file : ℕ) (w : World) : Prop :=
  file < w.nextFile ∧ (w.files.inodes file).changed < w.clock

/-- What a stream knows of its target before it has a temporary file. -/
def Snapshot (target : Option (ℕ × Stat)) (w : World) : Prop :=
  ∀ descriptor expected, target = some (descriptor, expected) →
    expected.file = descriptor ∧ descriptor < w.nextFile ∧ expected.changed < w.clock

lemma stable_past : Stable (Past file) where
  interfere w action _ h := by
    by_cases hplain : isReserved action.entry.name = true
    · rwa [interfere_of_reserved hplain]
    rw [interfere_of_plain (by simpa using hplain)]
    refine ⟨Nat.lt_succ_of_lt h.1, ?_⟩
    dsimp only
    rcases External.inodes_apply action w.clock w.files
      (Nat.ne_of_lt h.1) with hsame | hclock
    · rw [hsame]
      exact Nat.lt_succ_of_lt h.2
    · omega
  turns w turn turns hturns h := h

lemma stable_dated : Stable Dated where
  interfere w action _ h := by
    by_cases hplain : isReserved action.entry.name = true
    · rwa [interfere_of_reserved hplain]
    rw [interfere_of_plain (by simpa using hplain)]
    intro entry file hfile
    dsimp only at hfile ⊢
    rcases named_apply hfile with ⟨entry', hentry⟩ | ⟨rfl, _, _, _, _, _, rfl⟩
    · have hpast := h entry' file hentry
      refine ⟨Nat.lt_succ_of_lt hpast.1, ?_⟩
      rcases External.inodes_apply action w.clock w.files
        (Nat.ne_of_lt hpast.1) with hsame | hclock
      · rw [hsame]
        exact Nat.lt_succ_of_lt hpast.2
      · omega
    · exact ⟨Nat.lt_succ_self _, by simp [External.apply]⟩
  turns w turn turns hturns h := h

lemma stable_snapshot {opened : Option (ℕ × Stat)} : Stable (Snapshot opened) where
  interfere w action _ h := by
    by_cases hplain : isReserved action.entry.name = true
    · rwa [interfere_of_reserved hplain]
    rw [interfere_of_plain (by simpa using hplain)]
    intro descriptor expected hopened
    obtain ⟨hfile, hlt, hold⟩ := h descriptor expected hopened
    exact ⟨hfile, Nat.lt_succ_of_lt hlt, Nat.lt_succ_of_lt hold⟩
  turns w turn turns hturns h := h

/-- A target that is opened and validated. -/
lemma triple_validateTarget {target : Entry} {α : Type} {f : ℕ → Stat → Sys α}
    {Q : α → World → Prop} {maximum : ℕ}
    (hf : ∀ descriptor expected, expected.size ≤ maximum →
      Triple (Snapshot (some (descriptor, expected))) (f descriptor expected) Q
        fun _ _ => True) :
    Triple Dated (openAtBeneath target >>= fun descriptor =>
      validateRegularFile descriptor maximum >>= f descriptor) Q fun _ _ => True := by
  refine triple_bind (triple_weaken (triple_openAtBeneath stable_dated target) (fun _ h => h)
    (Q := fun descriptor => Past descriptor) (fun descriptor w h => h.1 target descriptor h.2)
    fun _ _ _ => trivial) fun descriptor => ?_
  refine triple_bind (triple_weaken (triple_validateRegularFile stable_past descriptor maximum)
    (fun _ h => h) (Q := fun expected w => Snapshot (some (descriptor, expected)) w ∧
      expected.size ≤ maximum) (fun expected w h => ?_) fun _ _ _ => trivial) fun expected => ?_
  · obtain ⟨hpast, rfl, -, -, hsize⟩ := h
    refine ⟨fun d e hde => ?_, hsize⟩
    cases hde
    exact ⟨rfl, hpast⟩
  · exact triple_assume fun hsize => hf descriptor expected hsize

/-- What the target of a stream is when it opens. -/
lemma triple_openTarget {operation : StreamOperation} (target : Entry) {expectedBytes : ℕ}
    {scope : FilesystemWriteScope} (hfits : expectedBytes ≤ scope.maximumFileBytes) :
    Triple Dated (openTarget operation target expectedBytes scope)
      (fun opened w => Snapshot opened.1 w ∧ opened.2 + expectedBytes ≤ scope.maximumFileBytes ∧
        (operation = .create → opened.1 = none) ∧ (operation ≠ .append → opened.2 = 0) ∧
          (operation = .append → ∃ descriptor expected,
            opened.1 = some (descriptor, expected) ∧ expected.size = opened.2))
      fun _ _ => True := by
  cases operation with
  | create =>
    exact triple_pure _ fun w _ =>
      ⟨fun _ _ h => by simp at h, by simpa using hfits, by simp, by simp, by simp⟩
  | replace =>
    refine triple_validateTarget fun descriptor expected hsize => ?_
    exact triple_pure _ fun w h => ⟨h, by simpa using hfits, by simp, by simp, by simp⟩
  | append =>
    refine triple_validateTarget fun descriptor expected hsize => ?_
    refine triple_lift_bind okOr_ne_panic (fun _ _ _ _ => trivial) fun total htotal => ?_
    refine triple_lift_bind rejectIf_ne_panic (fun _ _ _ _ => trivial) fun _ hlimit => ?_
    have hsum := (U64.add_eq_some.mp (okOr_eq_ok.mp htotal)).2
    have hle : ¬scope.maximumFileBytes < total := by simpa using rejectIf_eq_ok.mp hlimit
    exact triple_pure _ fun w h => ⟨h, by simp only; omega, by simp, by simp, by simp⟩

/-- The content of the file that a stream has opened. -/
def openedContent (upload : WriteUpload) (w : World) : List UInt8 :=
  match upload.expectedTarget with
  | some (descriptor, _) => (w.files.inodes descriptor).bytes
  | none => []

/-- A temporary file that was just created. -/
structure Fresh (temporary : Entry) (file : ℕ) (opened : Option (ℕ × Stat)) (w : World) :
    Prop where
  lt : file < w.nextFile
  staged : (w.files.inodes file).staged = true
  links : (w.files.inodes file).links = 1
  name : w.files.names temporary = some file
  snapshot : Snapshot opened w
  ne : ∀ descriptor expected, opened = some (descriptor, expected) → descriptor ≠ file

lemma triple_createFresh {temporary : Entry} {opened : Option (ℕ × Stat)} :
    Triple (Snapshot opened) (createExclusive temporary)
      (fun file => Fresh temporary file opened) fun _ _ => True := by
  refine triple_call stable_snapshot (fun _ _ _ => trivial) fun turn w h => ?_
  cases w.files.names temporary with
  | some file => trivial
  | none =>
    refine ⟨Nat.lt_succ_self _, by simp, by simp, by simp, fun descriptor expected hopened => ?_,
      fun descriptor expected hopened => ?_⟩
    · obtain ⟨hfile, hlt, hold⟩ := h descriptor expected hopened
      exact ⟨hfile, Nat.lt_succ_of_lt hlt, Nat.lt_succ_of_lt hold⟩
    · exact Nat.ne_of_lt (h descriptor expected hopened).2.1

/-- The temporary file of a new upload belongs to it. -/
lemma Fresh.owned (h : Fresh upload.temporary upload.temporaryFile upload.expectedTarget w)
    (hreserved : isReserved upload.temporary.name = true)
    (hplain : isReserved upload.target.name = false) :
    Owned upload (openedContent upload w) w := by
  refine ⟨h.lt, h.staged, hreserved, hplain, by rw [h.links], fun _ => .inl h.name,
    fun descriptor expected hexpected => ?_⟩
  obtain ⟨hfile, hlt, hold⟩ := h.snapshot descriptor expected hexpected
  refine ⟨hfile, h.ne descriptor expected hexpected, hlt, hold, fun _ => ?_, .inl h.name⟩
  rw [openedContent, hexpected]

lemma expectedBytes_le {stream : FilesystemWriteStream} {operation : StreamOperation}
    {scope : FilesystemWriteScope} (h : authorizeBegin request = ok (stream, operation))
    (hscope : FilesystemWrite.filesystemScope request = ok scope) :
    stream.expectedBytes.toNat ≤ scope.maximumFileBytes := by
  simp only [authorizeBegin, Outcome.bind_eq_ok, hscope, Outcome.ok.injEq] at h
  obtain ⟨_, _, scope', rfl, _, _, _, _, stream', _, _, _, _, hlimit, hpure⟩ := h
  cases hpure
  simpa using rejectIf_eq_ok.mp hlimit

/-- A stream that opens has an empty temporary file. -/
lemma triple_openStream_receiving (request : BoundRequest) (id : UInt64) :
    Triple (fun s => Dated s.world) (openStream id request)
      (fun _ s => ∃ upload, s.uploads.get id.toNat = some upload ∧ Sized upload ∧
        Receiving id.toNat upload (openedContent upload s.world) [] s)
      fun _ _ => True := by
  refine triple_lift_bind authorizeBegin_ne_panic (fun _ _ _ _ => trivial) fun begin hbegin => ?_
  obtain ⟨stream, operation⟩ := begin
  refine triple_lift_bind FilesystemWrite.filesystemScope_ne_panic (fun _ _ _ _ => trivial)
    fun scope hscope => ?_
  have hfits := expectedBytes_le hbegin hscope
  refine triple_bind (triple_weaken (triple_sys_world (FilesystemWrite.triple_openParent
    stable_dated (isPlain_authorizeBegin hbegin))) (fun _ h => h) (fun _ _ h => h)
    fun _ _ _ => trivial) fun target => ?_
  refine triple_assume fun htarget => ?_
  refine triple_bind (triple_sys_world (triple_openTarget target hfits))
    fun opened => ?_
  obtain ⟨expectedTarget, baseBytes⟩ := opened
  refine triple_assume fun hsized => ?_
  obtain ⟨hbase, hcreated, hkept, hsource⟩ := hsized
  refine triple_bind (triple_weaken (triple_sys_world (triple_temporaryName stable_snapshot))
    (fun _ h => h) (fun _ _ h => h) fun _ _ _ => trivial) fun name => ?_
  refine triple_assume fun hname => ?_
  refine triple_bind (triple_sys_world triple_createFresh) fun file => ?_
  refine triple_bind (Q := fun _ s => Fresh ⟨target.directory, name⟩ file expectedTarget s.world)
    (triple_get _ fun s hs => hs) fun present => ?_
  split_ifs
  · exact triple_bind (Q := fun _ _ => True) (fun _ _ => trivial)
      fun _ => triple_fail _ fun _ _ => trivial
  · refine triple_bind (Q := fun _ s => ∃ upload, s.uploads.get id.toNat = some upload ∧
      Sized upload ∧ Receiving id.toNat upload (openedContent upload s.world) [] s)
      (triple_modify fun s hs => ?_) fun _ => ?_
    · refine ⟨_, by rw [BTreeMap.get_insert, if_pos rfl], ⟨hbase, hcreated, hkept, hsource, rfl,
        rfl⟩, Nat.zero_le _, decide (operation ≠ .append), ?_, ?_⟩
      · refine ⟨hs.owned hname htarget, fun hcopied => ?_, fun hcopied => ⟨rfl, ?_⟩⟩
        · have hother : operation ≠ .append := of_decide_eq_true hcopied
          rw [kept, if_neg hother]
          exact ⟨(hkept hother).symm, List.nil_prefix⟩
        · simpa using hcopied
      · rw [BTreeMap.get_insert, if_pos rfl]
        rfl
    · refine triple_lift_bind (mapSchemaError_ne_panic ?_) (fun _ _ _ _ => trivial)
        fun _ _ => triple_pure () fun _ h => h
      exact ite_ne_panic (by simp) (Encoder.finish_ne_panic _)

/-! ### What a stream delivers -/

/-- The target of a stream is a file with the given bytes, as many as the stream has kept and
announced, and no more than its scope allows. -/
structure Delivered (upload : WriteUpload) (whole : List UInt8) (w : World) : Prop where
  name : w.files.names upload.target = some upload.temporaryFile
  bytes : (w.files.inodes upload.temporaryFile).bytes = whole
  length : whole.length = upload.baseBytes + upload.expectedBytes
  fits : whole.length ≤ upload.scope.maximumFileBytes

/-- A successful commit delivers the kept content and the accepted bytes, and finishes the
stream. -/
lemma delivered_command (hsized : Sized upload) {turns : List CallTurn}
    {receipt : FilesystemMutationResult} (hconcerns : Concerns resourceId request)
    (h : Receiving resourceId upload content accepted s ∨ Finished resourceId accepted s)
    (hcommit : (command resourceId request turns s).1 = ok (some receipt)) :
    Delivered upload (kept upload content ++ accepted)
        (command resourceId request turns s).2.world ∧
      Finished resourceId accepted (command resourceId request turns s).2 := by
  rw [command] at hcommit ⊢
  cases hrun : execute request (withTurns turns s) with
  | mk outcome s' =>
    rw [hrun] at hcommit
    obtain rfl : outcome = ok (some receipt) := hcommit
    rcases h with hreceiving | hfinished
    · have hends := triple_execute_receiving hsized hconcerns _
        (receiving_withTurns turns hreceiving)
      rw [hrun] at hends
      obtain ⟨hlength, hle, hcommitted, hget⟩ := hends
      have hopen : ¬((s'.uploads.get resourceId).elim false WriteUpload.closed = true) := by
        rw [hget]
        simp [received, hsized.unclosed]
      simp only [hopen]
      refine ⟨⟨hcommitted.name, hcommitted.bytes, hlength, ?_⟩,
        finished_of_holds ⟨hcommitted, hget⟩ (by simp) rfl hle⟩
      rw [hlength]
      exact hsized.fits
    · have hends := triple_execute_finished hconcerns (withTurns turns s) hfinished
      rw [hrun] at hends
      exact hends.elim

lemma not_ok_of_finished {turns : List CallTurn} (hconcerns : Concerns resourceId request)
    (h : Finished resourceId accepted s) (result : Option FilesystemMutationResult) :
    (command resourceId request turns s).1 ≠ ok result := by
  have hends := triple_execute_finished hconcerns (withTurns turns s) h
  rw [command]
  cases hrun : execute request (withTurns turns s) with
  | mk outcome s' =>
    rw [hrun] at hends
    rintro rfl
    exact hends

/-- In every run of commands against a stream the received bytes are those of the accepted
chunks, and no more than expected.  A commit that succeeds puts the content that the stream
keeps and the accepted chunks, in order, at the target, and nothing succeeds after it. -/
theorem upload_content {id : UInt64} {s₀ : WriteBroker} (hdated : Dated s.world)
    (hopen : openStream id request s = (ok (), s₀)) {events : List StreamEvent}
    (hevents : ∀ event ∈ events, event.Concerns id.toNat) :
    ∃ upload, s₀.uploads.get id.toNat = some upload ∧
      (∀ upload', (events.foldl (step id.toNat) s₀).uploads.get id.toNat = some upload' →
        upload'.receivedBytes = (acceptedIn id.toNat s₀ events).length ∧
          upload'.receivedBytes ≤ upload'.expectedBytes) ∧
      ∀ commit turns receipt s', Concerns id.toNat commit →
        command id.toNat commit turns (events.foldl (step id.toNat) s₀) =
            (ok (some receipt), s') →
          Delivered upload (kept upload (openedContent upload s₀.world) ++
              acceptedIn id.toNat s₀ events) s'.world ∧
            ∀ (events' : List StreamEvent) later turns',
              (∀ event ∈ events', event.Concerns id.toNat) → Concerns id.toNat later →
                ∀ result, (command id.toNat later turns'
                  (events'.foldl (step id.toNat) s')).1 ≠ ok result := by
  have hends := triple_openStream_receiving request id s hdated
  rw [hopen] at hends
  obtain ⟨upload, hget, hsized, hreceiving⟩ := hends
  have halive := alive_run hsized hevents (.inl hreceiving)
  rw [List.nil_append] at halive
  refine ⟨upload, hget, fun upload' hget' => ?_,
    fun commit turns receipt s' hconcerns hcommit => ?_⟩
  · rcases halive with ⟨hle, prefixCopied, -, hfound⟩ | hfinished
    · rw [hfound] at hget'
      cases hget'
      exact ⟨rfl, hle⟩
    · obtain ⟨-, hreceived, hle⟩ := hfinished upload' hget'
      exact ⟨hreceived, hreceived ▸ hle⟩
  · have hdelivered := delivered_command hsized hconcerns halive (by rw [hcommit])
    rw [hcommit] at hdelivered
    obtain ⟨hdelivered, hfinished⟩ := hdelivered
    refine ⟨hdelivered, fun events' later turns' hevents' hlater result => ?_⟩
    exact not_ok_of_finished hlater (finished_run hevents' hfinished) result

def appendCommit : BoundRequest :=
  notesRequest filesystemWriteStreamCommitOperation (FilesystemWriteStreamCommit.encode ⟨1⟩)

def todoStream : UInt64 := 1

/-- The broker after it has opened a stream that appends to `todo.txt`. -/
def todoOpened : WriteBroker :=
  (openStream todoStream (appendStream "todo.txt") ⟨notes [], .empty⟩).2

/-- Two bytes are appended to the three of `todo.txt`. -/
theorem upload_content_notes :
    ∃ upload, Delivered upload [1, 2, 3, 7, 7]
      (command todoStream.toNat appendCommit []
        ([StreamEvent.command appendChunk []].foldl (step todoStream.toNat)
          todoOpened)).2.world := by
  have hdated : Dated (notes []) := by
    intro entry file hfile
    simp only [notes, notesFiles] at hfile ⊢
    split_ifs at hfile
    cases hfile
    decide
  have hconcerns : ∀ request, commandResource request = ok todoStream.toNat →
      Concerns todoStream.toNat request := by
    intro request hrequest n hn
    rw [hrequest] at hn
    cases hn
    rfl
  have hpair : ∀ {α : Type} (result : α × WriteBroker) (a : α), result.1 = a →
      result = (a, result.2) := by
    rintro α ⟨a, s⟩ _ rfl
    rfl
  have hopened : openStream todoStream (appendStream "todo.txt") ⟨notes [], .empty⟩ =
      (ok (), todoOpened) := hpair _ _ (by decide +kernel)
  have hevents : ∀ event ∈ [StreamEvent.command appendChunk []],
      event.Concerns todoStream.toNat := by
    intro event hevent
    obtain rfl := List.mem_singleton.mp hevent
    exact hconcerns _ (by decide +kernel)
  have hreceipt : command todoStream.toNat appendCommit []
      ([StreamEvent.command appendChunk []].foldl (step todoStream.toNat) todoOpened) =
        (ok (some ⟨2, some 5⟩), (command todoStream.toNat appendCommit []
      ([StreamEvent.command appendChunk []].foldl (step todoStream.toNat) todoOpened)).2) :=
    hpair _ _ (by decide +kernel)
  obtain ⟨upload, hget, -, hcommit⟩ := upload_content hdated hopened hevents
  have hdelivered := (hcommit appendCommit [] _ _ (hconcerns _ (by decide +kernel)) hreceipt).1
  have hwhole : (todoOpened.uploads.get todoStream.toNat).map
      (fun upload => kept upload (openedContent upload todoOpened.world) ++
        acceptedIn todoStream.toNat todoOpened [.command appendChunk []]) =
      some [1, 2, 3, 7, 7] := by decide +kernel
  simp only [hget, Option.map_some, Option.some.injEq] at hwhole
  rw [hwhole] at hdelivered
  exact ⟨upload, hdelivered⟩

end WriteStreams

end TouchBar.Supervisor
