import TouchBar.Supervisor.FilesystemRules
import TouchBar.Supervisor.WriteStreams

/-!
# Stages of a write

While a request stages its result, the files are those of the shadow and the temporary file.
The stages say how the names stand before the rename, after it, and after it was taken back;
every system call leads from one stage to another.  No system call fails here.
-/

namespace TouchBar.Supervisor

open TouchBar.Rust TouchBar.Lib TouchBar.Policy TouchBar.Schema Outcome

variable {w w' : World} {entry temporary target : Entry} {file n clock : ℕ} {action : External}
  {files shadow : Files}

/-! ## The external process -/

/-- Two files that differ in the time of their last change at most. -/
def SameContent (a b : Inode) : Prop := { a with changed := 0 } = { b with changed := 0 }

lemma SameContent.refl (a : Inode) : SameContent a a := rfl

lemma sameContent_iff {a b : Inode} : SameContent a b ↔ a.regular = b.regular ∧
    a.links = b.links ∧ a.bytes = b.bytes ∧ a.modified = b.modified ∧ a.staged = b.staged := by
  cases a
  cases b
  simp [SameContent]

namespace Files

@[simp] lemma names_setInode (inode : Inode) : (files.setInode n inode).names = files.names := rfl

@[simp] lemma inodes_setName (f : Option ℕ) :
    (files.setName entry f).inodes = files.inodes := rfl

@[simp] lemma names_setName (f : Option ℕ) :
    (files.setName entry f).names = Function.update files.names entry f := rfl

@[simp] lemma inodes_setInode (inode : Inode) :
    (files.setInode n inode).inodes = Function.update files.inodes n inode := rfl

@[simp] lemma names_touch : (files.touch n clock).names = files.names := rfl

lemma names_dropName : (files.dropName entry clock).names =
    Function.update files.names entry none := by
  rw [dropName]
  split
  · rfl
  · rename_i hnone
    rw [← hnone, Function.update_eq_self]

lemma inodes_dropName_of_ne (h : files.names entry ≠ some n) :
    (files.dropName entry clock).inodes n = files.inodes n := by
  rw [dropName]
  split
  · rename_i file hfile
    have hne : n ≠ file := by
      rintro rfl
      exact h hfile
    simp [hne]
  · rfl

lemma names_change {links modified : ℕ} {bytes : List UInt8} :
    (files.change n links bytes modified clock).names = files.names := by
  rw [change]
  split_ifs <;> rfl

lemma inodes_change_of_ne {links modified : ℕ} {bytes : List UInt8} (h : file ≠ n) :
    (files.change n links bytes modified clock).inodes file = files.inodes file := by
  rw [change]
  split_ifs
  · rfl
  · simp [h]

/-- Changing the same file in two places keeps files alike. -/
lemma sameContent_change {links modified : ℕ} {bytes : List UInt8}
    (h : SameContent (files.inodes file) (shadow.inodes file)) :
    SameContent ((files.change n links bytes modified clock).inodes file)
      ((shadow.change n links bytes modified clock).inodes file) := by
  by_cases hn : file = n
  · subst hn
    rw [sameContent_iff] at h
    obtain ⟨hregular, hlinks, hbytes, hmodified, hstaged⟩ := h
    rw [change, change, hstaged]
    split_ifs
    · exact sameContent_iff.mpr ⟨hregular, hlinks, hbytes, hmodified, hstaged⟩
    · simp [SameContent, hregular, hstaged]
  · rwa [inodes_change_of_ne hn, inodes_change_of_ne hn]

/-- Dropping the same name in two places keeps files alike. -/
lemma sameContent_dropName (hentry : files.names entry = shadow.names entry)
    (h : SameContent (files.inodes n) (shadow.inodes n)) :
    SameContent ((files.dropName entry clock).inodes n)
      ((shadow.dropName entry clock).inodes n) := by
  rw [dropName, dropName, hentry]
  split
  · rename_i file _
    by_cases hn : n = file
    · subst hn
      rw [sameContent_iff] at h ⊢
      obtain ⟨hregular, hlinks, hbytes, hmodified, hstaged⟩ := h
      simp [hregular, hlinks, hbytes, hmodified, hstaged]
    · simpa [hn] using h
  · exact h

end Files

namespace External

/-- What the name of an action leads to afterwards. -/
def nameAfter (action : External) (nextFile : ℕ) (name : Option ℕ) : Option ℕ :=
  match action with
  | .replace .. => some nextFile
  | .remove _ => none
  | .change .. => name

lemma names_apply : (action.apply n clock files).names =
    Function.update files.names action.entry (action.nameAfter n (files.names action.entry)) := by
  cases action with
  | replace entry regular links bytes modified =>
    simp [apply, Files.names_dropName, External.entry, nameAfter]
  | remove entry => exact Files.names_dropName
  | change entry links bytes modified =>
    simp only [apply, nameAfter, External.entry, Function.update_eq_self]
    split
    · exact Files.names_change
    · rfl

/-- An action leaves the files alone that its name does not lead to, before or after. -/
lemma inodes_apply_of_ne (h : files.names action.entry ≠ some file) (hn : file ≠ n) :
    (action.apply n clock files).inodes file = files.inodes file := by
  cases action with
  | replace entry regular links bytes modified =>
    rw [External.entry] at h
    simp only [apply, Files.inodes_setName, Files.inodes_setInode]
    rw [Function.update_of_ne hn, Files.inodes_dropName_of_ne h]
  | remove entry => exact Files.inodes_dropName_of_ne h
  | change entry links bytes modified =>
    simp only [apply]
    split
    · rename_i other hother
      refine Files.inodes_change_of_ne ?_
      rintro rfl
      exact h hother
    · rfl

/-- An action on the same name in two places keeps files alike, and the new file is the same
in both. -/
lemma sameContent_apply (hentry : files.names action.entry = shadow.names action.entry)
    (h : SameContent (files.inodes file) (shadow.inodes file)) :
    SameContent ((action.apply n clock files).inodes file)
      ((action.apply n clock shadow).inodes file) := by
  cases action with
  | replace entry regular links bytes modified =>
    rw [External.entry] at hentry
    by_cases hn : file = n
    · subst hn
      simp [apply, SameContent]
    · simpa [apply, hn] using Files.sameContent_dropName hentry h
  | remove entry => exact Files.sameContent_dropName hentry h
  | change entry links bytes modified =>
    simp only [External.entry] at hentry
    simp only [apply, hentry]
    split
    · exact Files.sameContent_change h
    · exact h

lemma sameContent_apply_new {entry : Entry} {regular : Bool} {links modified : ℕ}
    {bytes : List UInt8} :
    SameContent (((External.replace entry regular links bytes modified).apply n clock
        files).inodes n)
      (((External.replace entry regular links bytes modified).apply n clock shadow).inodes n) := by
  simp [apply, SameContent]

end External

/-! ## Stages of a request -/

/-- The files that the shadow names are as in the shadow, and no system call fails. -/
structure Preserved (w : World) : Prop where
  inodes : ∀ e f, w.shadow.names e = some f →
    SameContent (w.files.inodes f) (w.shadow.inodes f)
  shadow_lt : ∀ e f, w.shadow.names e = some f → f < w.nextFile
  succeeds : w.Succeeds

/-- The request has changed nothing. -/
structure Untouched (w : World) : Prop extends Preserved w where
  names : w.files.names = w.shadow.names

/-- A file of the broker: the external process cannot name it. -/
structure Private (w : World) (file : ℕ) : Prop where
  unnamed : ∀ e, w.shadow.names e ≠ some file
  lt : file < w.nextFile

/-- The result of the request stands under its temporary name. -/
structure Staged (temporary : Entry) (file : ℕ) (w : World) : Prop extends
    Preserved w, Private w file where
  names : w.files.names = Function.update w.shadow.names temporary (some file)
  absent : w.shadow.names temporary = none
  reserved : isReserved temporary.name = true
  regular : (w.files.inodes file).regular = true
  links : (w.files.inodes file).links = 1

/-- The result of the request has lost its name. -/
structure Detached (temporary : Entry) (file : ℕ) (w : World) : Prop extends
    Untouched w, Private w file where
  absent : w.shadow.names temporary = none
  reserved : isReserved temporary.name = true

lemma Untouched.clean (h : Untouched w) : w.Clean := ⟨h.names, h.inodes⟩

lemma Staged.not_clean (h : Staged temporary file w) : ¬w.Clean := by
  intro hclean
  have hname := congrFun hclean.names temporary
  rw [h.names, Function.update_self, h.absent] at hname
  cases hname

/-! ### Turns -/

lemma interfere_of_reserved (h : isReserved action.entry.name = true) :
    w.interfere action = w := if_pos h

lemma interfere_of_plain (h : isReserved action.entry.name = false) : w.interfere action =
    { w with
      files := action.apply w.nextFile w.clock w.files
      shadow := action.apply w.nextFile w.clock w.shadow
      nextFile := w.nextFile + 1
      clock := w.clock + 1 } := if_neg (by simp [h])

/-- What has a name after an action had one before, or is the new file. -/
lemma named_apply {e : Entry} {f : ℕ}
    (h : (action.apply n clock files).names e = some f) :
    (∃ e', files.names e' = some f) ∨
      (f = n ∧ ∃ entry regular links bytes modified,
        action = .replace entry regular links bytes modified) := by
  rw [External.names_apply, Function.update_apply] at h
  split_ifs at h with he
  · cases action with
    | replace entry regular links bytes modified =>
      cases h
      exact .inr ⟨rfl, _, _, _, _, _, rfl⟩
    | remove entry => cases h
    | change entry links bytes modified => exact .inl ⟨_, h⟩
  · exact .inl ⟨e, h⟩

lemma Preserved.interfere (h : Preserved w) (hplain : isReserved action.entry.name = false)
    (hentry : w.files.names action.entry = w.shadow.names action.entry) :
    Preserved (w.interfere action) := by
  rw [interfere_of_plain hplain]
  refine ⟨fun e f hf => ?_, fun e f hf => ?_, h.succeeds⟩
  · rcases named_apply hf with ⟨e', he'⟩ | ⟨rfl, entry, regular, links, bytes, modified, rfl⟩
    · exact External.sameContent_apply hentry (h.inodes e' f he')
    · exact External.sameContent_apply_new
  · rcases named_apply hf with ⟨e', he'⟩ | ⟨rfl, -⟩
    · exact Nat.lt_succ_of_lt (h.shadow_lt e' f he')
    · exact Nat.lt_succ_self _

lemma Private.interfere (h : Private w file) : Private (w.interfere action) file := by
  by_cases hplain : isReserved action.entry.name = true
  · rwa [interfere_of_reserved hplain]
  rw [interfere_of_plain (by simpa using hplain)]
  refine ⟨fun e he => ?_, Nat.lt_succ_of_lt h.lt⟩
  rcases named_apply he with ⟨e', he'⟩ | ⟨rfl, -⟩
  · exact h.unnamed e' he'
  · exact absurd h.lt (Nat.lt_irrefl _)

lemma Untouched.interfere (h : Untouched w) : Untouched (w.interfere action) := by
  by_cases hplain : isReserved action.entry.name = true
  · rwa [interfere_of_reserved hplain]
  have hplain : isReserved action.entry.name = false := by simpa using hplain
  have hentry := congrFun h.names action.entry
  refine ⟨h.toPreserved.interfere hplain hentry, ?_⟩
  rw [interfere_of_plain hplain]
  simp only [External.names_apply, h.names]

lemma Staged.interfere (h : Staged temporary file w) :
    Staged temporary file (w.interfere action) := by
  by_cases hplain : isReserved action.entry.name = true
  · rwa [interfere_of_reserved hplain]
  have hplain : isReserved action.entry.name = false := by simpa using hplain
  have hne : action.entry ≠ temporary := by
    rintro rfl
    rw [h.reserved] at hplain
    cases hplain
  have hentry : w.files.names action.entry = w.shadow.names action.entry := by
    rw [h.names, Function.update_of_ne hne]
  have hother : w.files.names action.entry ≠ some file := by
    rw [hentry]
    exact h.unnamed _
  have hinode : ((w.interfere action).files.inodes file) = w.files.inodes file := by
    rw [interfere_of_plain hplain]
    exact External.inodes_apply_of_ne hother (Nat.ne_of_lt h.lt)
  refine ⟨h.toPreserved.interfere hplain hentry, h.toPrivate.interfere, ?_, ?_, h.reserved, ?_, ?_⟩
  · rw [interfere_of_plain hplain]
    simp only [External.names_apply, hentry, h.names]
    exact Function.update_comm hne.symm _ _ _
  · rw [interfere_of_plain hplain]
    simp only [External.names_apply]
    rw [Function.update_of_ne hne.symm, h.absent]
  · rw [hinode, h.regular]
  · rw [hinode, h.links]

/-- The external process does not take a reserved name. -/
lemma absent_interfere (hreserved : isReserved temporary.name = true)
    (habsent : w.shadow.names temporary = none) :
    (w.interfere action).shadow.names temporary = none := by
  by_cases hplain : isReserved action.entry.name = true
  · rwa [interfere_of_reserved hplain]
  have hne : temporary ≠ action.entry := by
    rintro rfl
    exact hplain hreserved
  rw [interfere_of_plain (by simpa using hplain)]
  simp only [External.names_apply]
  rw [Function.update_of_ne hne, habsent]

lemma Detached.interfere (h : Detached temporary file w) :
    Detached temporary file (w.interfere action) :=
  ⟨h.toUntouched.interfere, h.toPrivate.interfere, absent_interfere h.reserved h.absent,
    h.reserved⟩

lemma stable_untouched : Stable Untouched where
  interfere _ _ _ h := h.interfere
  turns w turn turns hturns h := ⟨⟨h.inodes, h.shadow_lt,
    World.stable_succeeds.turns w turn turns hturns h.succeeds⟩, h.names⟩

lemma stable_staged : Stable (Staged temporary file) where
  interfere _ _ _ h := h.interfere
  turns w turn turns hturns h := ⟨⟨h.inodes, h.shadow_lt,
    World.stable_succeeds.turns w turn turns hturns h.succeeds⟩, ⟨h.unnamed, h.lt⟩, h.names,
      h.absent, h.reserved, h.regular, h.links⟩

lemma stable_detached : Stable (Detached temporary file) where
  interfere _ _ _ h := h.interfere
  turns w turn turns hturns h := ⟨stable_untouched.turns w turn turns hturns h.toUntouched,
    ⟨h.unnamed, h.lt⟩, h.absent, h.reserved⟩

/-! ## Staging -/

namespace Sys

open Prog

variable {α : Type} {Q : α → World → Prop}

lemma triple_createExclusive (hreserved : isReserved temporary.name = true) :
    Triple Untouched (createExclusive temporary) (fun file => Staged temporary file)
      fun _ => Untouched := by
  refine triple_call stable_untouched (fun _ _ hw => hw) fun turn w hw => ?_
  cases htemporary : w.files.names temporary with
  | some file => exact hw
  | none =>
    rw [hw.names] at htemporary
    have hne : ∀ e f, w.shadow.names e = some f → f ≠ w.nextFile := fun e f hf =>
      Nat.ne_of_lt (hw.shadow_lt e f hf)
    refine ⟨⟨fun e f hf => ?_, fun e f hf => ?_, hw.succeeds⟩, ⟨fun e he => hne e _ he rfl, ?_⟩,
      ?_, htemporary, hreserved, ?_, ?_⟩
    · simpa [hne e f hf] using hw.inodes e f hf
    · exact Nat.lt_succ_of_lt (hw.shadow_lt e f hf)
    · exact Nat.lt_succ_self _
    · simp [hw.names]
    · simp
    · simp

/-- Writing to the staged file changes nothing that the shadow names. -/
lemma staged_written {bytes : List UInt8} {offset : ℕ} (h : Staged temporary file w) :
    Staged temporary file (written file bytes offset w) := by
  refine ⟨⟨fun e f hf => ?_, h.shadow_lt, h.succeeds⟩, ⟨h.unnamed, h.lt⟩, h.names, h.absent,
    h.reserved, ?_, ?_⟩
  · have hne : f ≠ file := by
      rintro rfl
      exact h.unnamed e hf
    simpa [written, hne] using h.inodes e f hf
  · simp [written, h.regular]
  · simp [written, h.links]

lemma detached_written {bytes : List UInt8} {offset : ℕ} (h : Detached temporary file w) :
    Detached temporary file (written file bytes offset w) := by
  refine ⟨⟨⟨fun e f hf => ?_, h.shadow_lt, h.succeeds⟩, h.names⟩, ⟨h.unnamed, h.lt⟩, h.absent,
    h.reserved⟩
  have hne : f ≠ file := by
    rintro rfl
    exact h.unnamed e hf
  simpa [written, hne] using h.inodes e f hf

/-- Removing the temporary name leaves what there was. -/
lemma triple_unlinkChecked (E : BrokerErrorCode → World → Prop) :
    Triple (Staged temporary file) (unlinkChecked temporary)
      (fun _ => Detached temporary file) E := by
  refine triple_call_succeeds stable_staged (fun w hw => hw.succeeds) fun turn w hw => ?_
  have hname : w.files.names temporary = some file := by rw [hw.names, Function.update_self]
  rw [hname]
  refine ⟨⟨⟨fun e f hf => ?_, hw.shadow_lt, hw.succeeds⟩, ?_⟩, ⟨hw.unnamed, hw.lt⟩, hw.absent,
    hw.reserved⟩
  · have hne : f ≠ file := by
      rintro rfl
      exact hw.unnamed e hf
    rw [Files.inodes_dropName_of_ne (by simpa [hname] using hne.symm)]
    exact hw.inodes e f hf
  · rw [Files.names_dropName, hw.names, Function.update_idem, ← hw.absent,
      Function.update_eq_self]

lemma unlink_staged (h : Staged temporary file w) :
    Detached temporary file (unlink temporary w).2 := by
  have hunlink := triple_unlinkChecked (fun _ _ => False) w h
  unfold unlink
  cases hrun : unlinkChecked temporary w with
  | mk outcome w' =>
    rw [hrun] at hunlink
    cases outcome with
    | ok _ => exact hunlink
    | err _ => exact hunlink.elim
    | panic => exact hunlink.elim

/-- There is no temporary name left to remove. -/
lemma unlink_detached (h : Detached temporary file w) :
    Detached temporary file (unlink temporary w).2 := by
  have hunlink : Triple (Detached temporary file) (unlinkChecked temporary)
      (fun _ => Detached temporary file) fun _ => Detached temporary file := by
    refine triple_call stable_detached (fun _ _ hw => hw) fun turn w hw => ?_
    rw [hw.names, hw.absent]
    exact hw
  have hrun := hunlink w h
  unfold unlink
  cases hrun' : unlinkChecked temporary w with
  | mk outcome w' =>
    rw [hrun'] at hrun
    cases outcome with
    | ok _ => exact hrun
    | err _ => exact hrun
    | panic => exact hrun.elim

end Sys

namespace FilesystemWrite

open Prog Sys

variable {α : Type} {Q : α → World → Prop}

/-- A step over a staged file, with its clean-up. -/
lemma triple_orUnlink {step : Sys α}
    (h : Triple (Staged temporary file) step Q fun _ => Staged temporary file) :
    Triple (Staged temporary file) (orUnlink temporary step) Q fun _ => Untouched :=
  triple_onError h fun _ _ hw => (unlink_staged hw).toUntouched

lemma keeps_pwriteAllAt {bytes : List UInt8} {offset : ℕ} :
    Keeps (Staged temporary file) (pwriteAllAt file bytes offset) :=
  triple_pwriteAllAt (I := fun _ _ => Staged temporary file) bytes offset
    (fun _ _ => stable_staged) (fun _ _ _ _ _ => staged_written) fun _ _ _ _ h => h

lemma keeps_writeAndSync {bytes : List UInt8} :
    Keeps (Staged temporary file) (writeAndSync file bytes) :=
  keeps_bind keeps_pwriteAllAt fun _ => keeps_fdatasync stable_staged file

lemma keeps_copyExact {source length : ℕ} :
    Keeps (Staged temporary file) (copyExact source file length) :=
  triple_copyExact (I := fun _ _ => Staged temporary file) length
    (fun _ _ => stable_staged) (fun _ _ _ h => h) (fun _ _ _ _ _ => staged_written)
    fun _ _ _ _ h => h

end FilesystemWrite

/-! ## The exchange -/

/-- The staged file and the target have exchanged their names. -/
structure Swapped (temporary target : Entry) (file other : ℕ) (w : World) : Prop extends
    Preserved w, Private w file where
  names : w.files.names =
    Function.update (Function.update w.shadow.names temporary (some other)) target (some file)
  absent : w.shadow.names temporary = none
  present : w.shadow.names target = some other
  reserved : isReserved temporary.name = true
  plain : isReserved target.name = false
  regular : (w.files.inodes file).regular = true
  links : (w.files.inodes file).links = 1
  renamed : w.renamed = true

/-- The name of the target, where it is still taken, leads to the file that was validated. -/
def TargetKept (requireUnchangedSnapshot : Bool) (expected : Stat) (target : Entry)
    (w : World) : Prop :=
  ∀ other, w.files.names target = some other →
    Sys.isExpected requireUnchangedSnapshot expected (w.files.stat other) = true

section Exchange

variable {other m : ℕ} {snapshot : Bool} {expected : Stat}

lemma ne_of_reserved (htemporary : isReserved temporary.name = true)
    (htarget : isReserved target.name = false) : temporary ≠ target := by
  rintro rfl
  rw [htemporary] at htarget
  cases htarget

namespace Files

/-- A file that is touched differs in the time of its last change only. -/
lemma inodes_touch : (files.touch n clock).inodes m =
    { files.inodes m with changed := ((files.touch n clock).inodes m).changed } := by
  by_cases hm : m = n
  · subst hm
    simp [touch]
  · simp [touch, hm]

@[simp] lemma regular_touch :
    ((files.touch n clock).inodes m).regular = (files.inodes m).regular := by rw [inodes_touch]

@[simp] lemma links_touch :
    ((files.touch n clock).inodes m).links = (files.inodes m).links := by rw [inodes_touch]

@[simp] lemma bytes_touch :
    ((files.touch n clock).inodes m).bytes = (files.inodes m).bytes := by rw [inodes_touch]

@[simp] lemma staged_touch :
    ((files.touch n clock).inodes m).staged = (files.inodes m).staged := by rw [inodes_touch]

/-- A file that seems unchanged was not touched. -/
lemma inodes_touch_of_changed (h : ((files.touch n clock).inodes m).changed ≠ clock) :
    (files.touch n clock).inodes m = files.inodes m := by
  by_cases hm : m = n
  · subst hm
    simp [touch] at h
  · simp [touch, hm]

lemma sameContent_touch (h : SameContent (files.inodes m) (shadow.inodes m)) :
    SameContent ((files.touch n clock).inodes m) (shadow.inodes m) := by
  rw [inodes_touch]
  exact h

end Files

/-- The time of the last change is not compared. -/
lemma isExpected_touch : Sys.isExpected snapshot expected ((files.touch n clock).stat other) =
    Sys.isExpected snapshot expected (files.stat other) := by
  rw [Files.stat, Files.inodes_touch]
  rfl

lemma Swapped.name_temporary (h : Swapped temporary target file other w) :
    w.files.names temporary = some other := by
  rw [h.names, Function.update_of_ne (ne_of_reserved h.reserved h.plain), Function.update_self]

lemma Swapped.name_target (h : Swapped temporary target file other w) :
    w.files.names target = some file := by
  rw [h.names, Function.update_self]

/-- The names have been exchanged, and the file that was moved away is the expected one or
not. -/
lemma stable_swapped {valid : Bool} : Stable fun w => Swapped temporary target file other w ∧
    Sys.isExpected snapshot expected (w.files.stat other) = valid where
  interfere _ _ hrenamed h := by
    rw [h.1.renamed] at hrenamed
    cases hrenamed
  turns w turn turns hturns h := ⟨⟨⟨h.1.inodes, h.1.shadow_lt,
    World.stable_succeeds.turns w turn turns hturns h.1.succeeds⟩, ⟨h.1.unnamed, h.1.lt⟩,
      h.1.names, h.1.absent, h.1.present, h.1.reserved, h.1.plain, h.1.regular, h.1.links,
      h.1.renamed⟩, h.2⟩

/-- What the exchange makes of a staged file and a target that is there. -/
lemma Staged.exchange (h : Staged temporary file w) (hplain : isReserved target.name = false)
    (hother : w.files.names target = some other) :
    Swapped temporary target file other { w with
      files := (((w.files.touch file w.clock).touch other w.clock).setName temporary
        (some other)).setName target (some file)
      clock := w.clock + 1
      renamed := true } := by
  have hne := ne_of_reserved h.reserved hplain
  refine ⟨⟨fun e f hf => ?_, h.shadow_lt, h.succeeds⟩, ⟨h.unnamed, h.lt⟩, ?_, h.absent, ?_,
    h.reserved, hplain, ?_, ?_, rfl⟩
  · exact Files.sameContent_touch (Files.sameContent_touch (h.inodes e f hf))
  · simp [h.names]
  · rwa [h.names, Function.update_of_ne hne.symm] at hother
  · simp [h.regular]
  · simp [h.links]

/-- Exchanging once more takes the exchange back. -/
lemma Swapped.exchange (h : Swapped temporary target file other w) :
    Staged temporary file { w with
      files := (((w.files.touch other w.clock).touch file w.clock).setName temporary
        (some file)).setName target (some other)
      clock := w.clock + 1
      renamed := true } := by
  have hne := ne_of_reserved h.reserved h.plain
  refine ⟨⟨fun e f hf => ?_, h.shadow_lt, h.succeeds⟩, ⟨h.unnamed, h.lt⟩, ?_, h.absent,
    h.reserved, ?_, ?_⟩
  · exact Files.sameContent_touch (Files.sameContent_touch (h.inodes e f hf))
  · -- both names lead where they led before
    funext e
    simp only [Files.names_setName, Files.names_touch, h.names, Function.update_apply]
    split_ifs with htarget htemporary
    · exact absurd (htemporary.symm.trans htarget) hne
    · rw [htarget, h.present]
    · rfl
    · rfl
  · simp [h.regular]
  · simp [h.links]

namespace Sys

open Prog

/-- A file that is not the expected one is moved back, and the staged file keeps its temporary
name. -/
lemma triple_verifyExchanged {valid : Bool} :
    Triple (fun w => Swapped temporary target file other w ∧
        isExpected snapshot expected (w.files.stat other) = valid)
      (verifyExchanged temporary target expected snapshot)
      (fun _ w => valid = true ∧ w.Succeeds)
      fun _ w => valid = false ∧ Staged temporary file w := by
  let P : World → Prop := fun w => Swapped temporary target file other w ∧
    isExpected snapshot expected (w.files.stat other) = valid
  have hsucceeds : ∀ w, P w → w.Succeeds := fun w hw => hw.1.succeeds
  refine triple_bind (Q := fun swapped w => ∃ metadata, swapped = ok metadata ∧
    isExpected snapshot expected metadata = valid ∧ P w) ?_ fun swapped => ?_
  · refine triple_attempt (triple_call_succeeds stable_swapped hsucceeds fun turn w hw => ?_)
    rw [hw.1.name_temporary]
    exact ⟨_, rfl, hw.2, hw⟩
  rintro w ⟨metadata, rfl, hmetadata, hw⟩
  dsimp only
  rw [hmetadata]
  cases valid with
  | true =>
    -- the file that was replaced goes
    change Ends _ _ (unlinkChecked temporary w)
    refine triple_call_succeeds stable_swapped hsucceeds (fun turn w hw => ?_) w hw
    rw [hw.1.name_temporary]
    exact ⟨rfl, hw.1.succeeds⟩
  | false =>
    refine triple_bind (Q := fun rollback w => rollback = ok () ∧ Staged temporary file w)
      (triple_attempt (triple_call_succeeds stable_swapped hsucceeds fun turn w hw => ?_))
      (fun rollback => ?_) w hw
    · rw [hw.1.name_temporary, hw.1.name_target]
      exact ⟨rfl, hw.1.exchange⟩
    · rintro w ⟨rfl, hw⟩
      exact ⟨rfl, hw⟩

variable (snapshot expected) in
/-- The exchange fails where the name of the target is free. -/
lemma triple_renameExchange (h : Staged temporary file w)
    (hplain : isReserved target.name = false) :
    Triple (fun s => s = w) (renameExchange temporary target)
      (fun _ w' => ∃ other valid, (valid = true ↔
        TargetKept snapshot expected target w.nextTurn.2) ∧
          Swapped temporary target file other w' ∧
            isExpected snapshot expected (w'.files.stat other) = valid)
      fun _ w' => Staged temporary file w' ∧
        TargetKept snapshot expected target w.nextTurn.2 := by
  refine triple_call_turn (I := fun turn s => turn.failure = none ∧ s = w.nextTurn.2) ?_ ?_ ?_
  · rintro s rfl
    exact ⟨World.failure_nextTurn h.succeeds, rfl⟩
  · rintro turn s code ⟨hnone, -⟩ hsome
    rw [hnone] at hsome
    cases hsome
  rintro turn s ⟨-, rfl⟩
  have hnext := stable_staged.nextTurn h
  have hname : w.nextTurn.2.files.names temporary = some file := by
    rw [hnext.names, Function.update_self]
  rw [hname]
  cases hother : w.nextTurn.2.files.names target with
  | none =>
    refine ⟨hnext, fun other h => ?_⟩
    rw [hother] at h
    cases h
  | some other =>
    refine ⟨other, isExpected snapshot expected (w.nextTurn.2.files.stat other), ?_,
      hnext.exchange hplain hother, ?_⟩
    · constructor
      · intro hvalid other' hother'
        rw [hother] at hother'
        cases hother'
        exact hvalid
      · exact fun hkept => hkept other hother
    · exact isExpected_touch.trans isExpected_touch

variable (snapshot expected) in
/-- The exchange from a staged file.  Where it fails the target is gone and the staged file
with it, or the target is another file and the staged file stays. -/
theorem exchangeAndRemove_ends (h : Staged temporary file w)
    (hplain : isReserved target.name = false) :
    Ends (fun _ w' => TargetKept snapshot expected target w.nextTurn.2 ∧ w'.Succeeds)
      (fun _ w' => (TargetKept snapshot expected target w.nextTurn.2 →
          Detached temporary file w') ∧
        (¬TargetKept snapshot expected target w.nextTurn.2 → Staged temporary file w'))
      (exchangeAndRemove temporary target expected snapshot w) := by
  refine triple_bind
    (triple_onError (triple_renameExchange snapshot expected h hplain) fun _ w' hw => ?_)
    (fun _ => ?_) w rfl
  · exact ⟨fun _ => unlink_staged hw.1, fun hkept => absurd hw.2 hkept⟩
  rintro w' ⟨other, valid, hvalid, hw⟩
  refine triple_weaken triple_verifyExchanged (fun _ h => h)
    (fun _ _ hok => ⟨hvalid.mp hok.1, hok.2⟩) (fun _ w'' hw => ?_) w' hw
  obtain ⟨rfl, hstaged⟩ := hw
  have hnot : ¬TargetKept snapshot expected target w.nextTurn.2 := fun hkept => by
    have := hvalid.mpr hkept
    cases this
  exact ⟨fun hkept => absurd hkept hnot, fun _ => hstaged⟩

end Sys

end Exchange

/-! ## Files that were moved -/

/-- A file of the shadow has another name. -/
structure Moved (source destination : Entry) (other : ℕ) (w : World) : Prop
    extends Preserved w where
  names : w.files.names =
    Function.update (Function.update w.shadow.names source none) destination (some other)
  present : w.shadow.names source = some other
  absent : w.shadow.names destination = none
  renamed : w.renamed = true

/-- The staged file has the name of its target. -/
structure Placed (target : Entry) (file : ℕ) (w : World) : Prop where
  name : w.files.names target = some file
  regular : (w.files.inodes file).regular = true
  links : (w.files.inodes file).links = 1
  renamed : w.renamed = true
  succeeds : w.Succeeds

section Moves

variable {other : ℕ} {source destination : Entry} {expected : Stat}

lemma stable_moved : Stable fun w => ∃ other, Moved source destination other w where
  interfere _ _ hrenamed h := by
    obtain ⟨other, h⟩ := h
    rw [h.renamed] at hrenamed
    cases hrenamed
  turns w turn turns hturns h := by
    obtain ⟨other, h⟩ := h
    exact ⟨other, ⟨h.inodes, h.shadow_lt,
      World.stable_succeeds.turns w turn turns hturns h.succeeds⟩, h.names, h.present, h.absent,
      h.renamed⟩

lemma stable_placed : Stable (Placed target file) where
  interfere _ _ hrenamed h := by
    rw [h.renamed] at hrenamed
    cases hrenamed
  turns w turn turns hturns h := ⟨h.name, h.regular, h.links, h.renamed,
    World.stable_succeeds.turns w turn turns hturns h.succeeds⟩

lemma Moved.ne (h : Moved source destination other w) : source ≠ destination := by
  rintro rfl
  have hpresent := h.present
  rw [h.absent] at hpresent
  cases hpresent

lemma Moved.name_source (h : Moved source destination other w) :
    w.files.names source = none := by
  rw [h.names, Function.update_of_ne h.ne, Function.update_self]

lemma Moved.name_destination (h : Moved source destination other w) :
    w.files.names destination = some other := by
  rw [h.names, Function.update_self]

lemma Untouched.move (h : Untouched w) (hsource : w.files.names source = some other)
    (hdestination : w.files.names destination = none) : Moved source destination other { w with
      files := ((w.files.touch other w.clock).setName source none).setName destination
        (some other)
      clock := w.clock + 1
      renamed := true } := by
  refine ⟨⟨fun e f hf => ?_, h.shadow_lt, h.succeeds⟩, ?_, ?_, ?_, rfl⟩
  · exact Files.sameContent_touch (h.inodes e f hf)
  · simp [h.names]
  · rwa [h.names] at hsource
  · rwa [h.names] at hdestination

lemma Moved.moveBack (h : Moved source destination other w) : Untouched { w with
      files := ((w.files.touch other w.clock).setName destination none).setName source
        (some other)
      clock := w.clock + 1
      renamed := true } := by
  refine ⟨⟨fun e f hf => ?_, h.shadow_lt, h.succeeds⟩, ?_⟩
  · exact Files.sameContent_touch (h.inodes e f hf)
  · funext e
    simp only [Files.names_setName, Files.names_touch, h.names, Function.update_apply]
    split_ifs with hsource hdestination
    · rw [hsource, h.present]
    · rw [hdestination, h.absent]
    · rfl

lemma Staged.place (h : Staged temporary file w) : Placed target file { w with
      files := ((w.files.touch file w.clock).setName temporary none).setName target (some file)
      clock := w.clock + 1
      renamed := true } := by
  refine ⟨?_, ?_, ?_, rfl, h.succeeds⟩
  · simp
  · simp [h.regular]
  · simp [h.links]

namespace Sys

open Prog

lemma triple_renameNoReplace : Triple Untouched (renameNoReplace source destination)
    (fun _ w => ∃ other, Moved source destination other w) fun _ => Untouched := by
  refine triple_call stable_untouched (fun _ _ hw => hw) fun turn w hw => ?_
  cases hsource : w.files.names source with
  | none => exact hw
  | some other =>
    cases hdestination : w.files.names destination with
    | none => exact ⟨other, hw.move hsource hdestination⟩
    | some _ => exact hw

lemma triple_renameNoReplace_staged : Triple (Staged temporary file)
    (renameNoReplace temporary target) (fun _ => Placed target file)
    fun _ => Staged temporary file := by
  refine triple_call stable_staged (fun _ _ hw => hw) fun turn w hw => ?_
  have hname : w.files.names temporary = some file := by rw [hw.names, Function.update_self]
  rw [hname]
  cases htarget : w.files.names target with
  | some _ => exact hw
  | none => exact hw.place

/-- A file that was placed is found at its target. -/
lemma triple_metadataAt_placed (E : BrokerErrorCode → World → Prop) :
    Triple (Placed target file) (metadataAt target)
      (fun metadata w => Placed target file w ∧ metadata.file = file ∧
        metadata.regular = true ∧ metadata.links = 1) E := by
  refine triple_call_succeeds stable_placed (fun w hw => hw.succeeds) fun turn w hw => ?_
  rw [hw.name]
  exact ⟨hw, rfl, hw.regular, hw.links⟩

end Sys

namespace FilesystemWrite

open Prog Sys

/-- A file that was moved is the expected one, or it is moved back. -/
lemma triple_verifyMoved : Triple (fun w => ∃ other, Moved source destination other w)
    (verifyMoved source destination expected)
    (fun _ w => ∃ other, Moved source destination other w) fun _ => Untouched := by
  have hsucceeds : ∀ w, (∃ other, Moved source destination other w) → w.Succeeds :=
    fun w ⟨_, hw⟩ => hw.succeeds
  refine triple_bind (Q := fun moved w => (∃ other, Moved source destination other w) ∧
    ∃ metadata, moved = ok metadata) ?_ fun moved => ?_
  · refine triple_attempt (triple_call_succeeds stable_moved hsucceeds fun turn w hw => ?_)
    obtain ⟨other, hw⟩ := hw
    rw [hw.name_destination]
    exact ⟨⟨other, hw⟩, _, rfl⟩
  refine triple_assume fun ⟨metadata, hmetadata⟩ => ?_
  subst hmetadata
  dsimp only
  split_ifs with hsame
  · refine triple_bind (Q := fun _ => Untouched) (triple_attempt
      (triple_call_succeeds stable_moved hsucceeds fun turn w hw => ?_))
      fun _ => triple_fail _ fun _ hw => hw
    obtain ⟨other, hw⟩ := hw
    rw [hw.name_destination, hw.name_source]
    exact hw.moveBack
  · exact triple_pure _ fun w hw => hw

end FilesystemWrite

end Moves

end TouchBar.Supervisor
