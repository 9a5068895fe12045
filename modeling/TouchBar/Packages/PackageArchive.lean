import TouchBar.Lib.Effects
import TouchBar.Packages.PackageDigest
import TouchBar.Packages.TreeFiles

/-!
# Package archives

`pack_directory` writes the members of a package one after the other, and `unpack_archive`
makes files of them again.  What is unpacked of an archive that was packed is inspected like
the package itself.  Whatever bytes are unpacked, all files are created below the destination,
no file twice, and their contents keep within the limit of a package.
-/

namespace TouchBar.Packages

open TouchBar.Rust TouchBar.Rust.BytePath TouchBar.Lib Outcome

def archiveMagic : List UInt8 := Text.asBytes "OTBPKG01"

def maxArchiveBytes : ℕ := maxPackageBytes + 8 * 1024 * 1024

/-! ## Packing -/

/-- What `pack_directory` writes of one member. -/
def archivedBytes (member : PackageMember) (content : List UInt8) : List UInt8 :=
  leBytes 2 member.relative.length ++ member.relative ++ [flagByte member.executable] ++
    leBytes 8 member.length ++ content

/-- The loop over the members. -/
def packMembers (root : Node) : List PackageMember → Outcome String (List UInt8)
  | [] => ok []
  | member :: members => do
    bailIf (2 ^ 16 ≤ member.relative.length) "archive path is too long"
    let content ← root.openRegular member.relative
    let rest ← packMembers root members
    return archivedBytes member content ++ rest

/-- `pack_directory`, with the content of the archive. -/
def packDirectory (parseManifest : List UInt8 → Outcome String PackageManifest)
    (sha256 : List UInt8 → String) (package : Node) : Outcome String (Inspection × List UInt8) := do
  let inspection ← inspectPackage parseManifest sha256 package
  let records ← packMembers inspection.root inspection.members
  return (inspection, archiveMagic ++ leBytes 4 inspection.members.length ++ records)

/-! ## Unpacking -/

/-- A file that is created, under the path that is given to the system. -/
structure Created where
  path : List UInt8
  executable : Bool
  content : List UInt8
deriving DecidableEq, Repr

structure Unpacking where
  /-- What is still to be read of the archive. -/
  input : List UInt8
  seen : BTreeSet (List Part)
  total : ℕ
  /-- What is below the destination. -/
  entries : Entries
  created : List Created

/-- `read_exact`. -/
def readExact (n : ℕ) : Prog Unpacking String (List UInt8) := fun s =>
  if s.input.length < n then (err "failed to fill whole buffer", s)
  else (ok (s.input.take n), { s with input := s.input.drop n })

/-- `if !seen.insert(relative) { bail! }`. -/
def markSeen (relative : List UInt8) : Prog Unpacking String Unit := fun s =>
  if s.seen.contains (parts relative) then (err "archive contains duplicate paths", s)
  else (ok (), { s with seen := s.seen.insert (parts relative) })

def addLength (length : ℕ) : Prog Unpacking String Unit := do
  let s ← Prog.get id
  Prog.lift (bailIf (2 ^ 64 ≤ s.total + length) "archive size overflow")
  Prog.lift (bailIf (maxPackageBytes < s.total + length) "archive expands beyond 256 MiB")
  Prog.modify fun s => { s with total := s.total + length }

/-- The directories on the way, the new file, and the copy of its content. -/
def writeMember (destination relative : List UInt8) (executable : Bool) (length : ℕ) :
    Prog Unpacking String Unit := fun s =>
  match if endsAsDirectory relative then none
      else createFile (s.input.take length) (names relative) s.entries with
  | none => (err "File exists", s)
  | some entries =>
    (bailIf ((s.input.take length).length ≠ length) "archive member is truncated",
      { s with
        input := s.input.drop length
        entries := entries
        created := s.created ++ [⟨join destination relative, executable, s.input.take length⟩] })

/-- The body of the loop. -/
def unpackMember (destination : List UInt8) : Prog Unpacking String Unit := do
  let pathLength ← readExact 2
  Prog.lift (bailIf (leValue pathLength = 0 || maxArchivePathBytes < leValue pathLength)
    "archive path length is invalid")
  let relative ← readExact (leValue pathLength)
  Prog.lift (bailIf (String.fromUTF8? ⟨relative.toArray⟩).isNone "archive path is not UTF-8")
  Prog.lift (validateMemberPath relative)
  markSeen relative
  let executable ← readExact 1
  Prog.lift (bailIf (1 < leValue executable) "archive executable flag is invalid")
  let length ← readExact 8
  Prog.lift (bailIf (maxPackageFileBytes < leValue length) "archive member exceeds 64 MiB")
  addLength (leValue length)
  writeMember destination relative (leValue executable = 1) (leValue length)

def unpackMembers (destination : List UInt8) : ℕ → Prog Unpacking String Unit
  | 0 => pure ()
  | count + 1 => do
    unpackMember destination
    unpackMembers destination count

def unpackBody (destination archive : List UInt8) : Prog Unpacking String Unit := do
  Prog.lift (bailIf (maxArchiveBytes < archive.length) "package archive exceeds its size limit")
  let magic ← readExact 8
  Prog.lift (bailIf (magic ≠ archiveMagic) "not a TouchBar package archive")
  let count ← readExact 4
  Prog.lift (bailIf (leValue count = 0 || maxPackageFiles < leValue count)
    "archive file count is invalid")
  unpackMembers destination (leValue count)
  let s ← Prog.get id
  Prog.lift (bailIf (s.input ≠ []) "archive contains trailing data")

/-- `unpack_archive` into an empty directory. -/
def unpackArchive (destination archive : List UInt8) : Outcome String Unit × Unpacking :=
  unpackBody destination archive ⟨archive, .empty, 0, .nil, []⟩

/-! ## Containment -/

section Containment

variable {destination relative : List UInt8} {length : ℕ}

open Prog

/-- What the files that were created have in common. -/
structure Contained (destination : List UInt8) (s : Unpacking) : Prop where
  /-- A file is under names below the destination, and its path has been seen. -/
  below : ∀ c ∈ s.created, ∃ ns, ns ≠ [] ∧ ns.map Part.normal ∈ s.seen ∧
    parts c.path = parts destination ++ ns.map Part.normal
  distinct : (s.created.map fun c => parts c.path).Nodup
  total_le : (s.created.map fun c => c.content.length).sum ≤ s.total
  bound : s.total ≤ maxPackageBytes

/-- The path is seen for the first time. -/
structure Fresh (destination relative : List UInt8) (s : Unpacking) : Prop where
  contained : Contained destination s
  seen : parts relative ∈ s.seen
  new : ∀ c ∈ s.created, parts c.path ≠ parts destination ++ parts relative

/-- There is room for a content of this length. -/
structure Roomy (destination relative : List UInt8) (length : ℕ) (s : Unpacking) : Prop where
  fresh : Fresh destination relative s
  room : (s.created.map fun c => c.content.length).sum + length ≤ s.total

lemma Contained.input (input : List UInt8) {s : Unpacking} (h : Contained destination s) :
    Contained destination { s with input := input } := ⟨h.below, h.distinct, h.total_le, h.bound⟩

lemma Fresh.input (input : List UInt8) {s : Unpacking} (h : Fresh destination relative s) :
    Fresh destination relative { s with input := input } := ⟨h.contained.input input, h.seen, h.new⟩

/-- Reading keeps what does not speak of the input. -/
lemma keeps_readExact {P : Unpacking → Prop} (n : ℕ)
    (h : ∀ s input, P s → P { s with input := input }) :
    Keeps P (readExact n) (fun _ => P) P := by
  intro s hs
  rw [readExact]
  split_ifs
  · exact ⟨hs, fun _ _ => hs⟩
  · exact ⟨h s _ hs, fun _ _ => h s _ hs⟩

lemma keeps_markSeen : Keeps (Contained destination) (markSeen relative)
    (fun _ => Fresh destination relative) (Contained destination) := by
  intro s hs
  rw [markSeen]
  split_ifs with hseen
  · exact ⟨hs, fun _ h => by cases h⟩
  · have hnext : Contained destination { s with seen := s.seen.insert (parts relative) } := by
      refine ⟨fun c hc => ?_, hs.distinct, hs.total_le, hs.bound⟩
      obtain ⟨ns, hne, hmem, hparts⟩ := hs.below c hc
      exact ⟨ns, hne, BTreeSet.mem_insert.mpr (.inr hmem), hparts⟩
    refine ⟨hnext, fun _ _ => ⟨hnext, BTreeSet.mem_insert.mpr (.inl rfl), fun c hc heq => ?_⟩⟩
    obtain ⟨ns, -, hmem, hparts⟩ := hs.below c hc
    rw [hparts] at heq
    rw [BTreeSet.contains_iff, ← List.append_cancel_left heq] at hseen
    exact hseen hmem

lemma keeps_addLength : Keeps (Fresh destination relative) (addLength length)
    (fun _ => Roomy destination relative length) (Contained destination) := by
  refine keeps_get_bind fun s hs => ?_
  have hkeep : ∀ t, t = s → Contained destination t := fun t ht => ht ▸ hs.contained
  refine keeps_lift_bind hkeep fun _ _ => ?_
  refine keeps_lift_bind hkeep fun _ hbound => ?_
  rw [bailIf_eq_ok, decide_eq_false_iff_not, not_lt] at hbound
  refine keeps_modify fun t ht => ?_
  have htotal := hs.contained.total_le
  have hnext : Contained destination { s with total := s.total + length } :=
    ⟨hs.contained.below, hs.contained.distinct, htotal.trans (Nat.le_add_right _ _), hbound⟩
  rw [ht]
  exact ⟨hnext, ⟨hnext, hs.seen, hs.new⟩, Nat.add_le_add_right htotal _⟩

lemma keeps_writeMember {executable : Bool} (hvalid : ValidPath relative) :
    Keeps (Roomy destination relative length)
      (writeMember destination relative executable length) (fun _ => Contained destination)
      (Contained destination) := by
  intro s hs
  have hfresh := hs.fresh
  have hcontained := hfresh.contained
  rw [writeMember]
  split
  · exact ⟨hcontained, fun _ h => by cases h⟩
  · rename_i entries _
    have hparts : parts (join destination relative) = parts destination ++ parts relative :=
      parts_join hvalid.normal
    have hnext : Contained destination
        { s with
          input := s.input.drop length
          entries := entries
          created := s.created ++
            [⟨join destination relative, executable, s.input.take length⟩] } := by
      refine ⟨fun c hc => ?_, ?_, ?_, hcontained.bound⟩
      · rcases List.mem_append.mp hc with hc | hc
        · exact hcontained.below c hc
        · rw [List.mem_singleton.mp hc]
          have hnames := parts_eq_map_names hvalid.normal
          refine ⟨names relative, fun hnil => ?_, hnames ▸ hfresh.seen, hnames ▸ hparts⟩
          rw [hnil] at hnames
          exact parts_ne_nil hvalid.nonempty hnames
      · rw [List.map_append, List.nodup_append']
        refine ⟨hcontained.distinct, List.nodup_singleton _, ?_⟩
        rw [List.map_singleton, List.disjoint_singleton]
        intro hmem
        obtain ⟨c, hc, heq⟩ := List.mem_map.mp hmem
        exact hfresh.new c hc (heq.trans hparts)
      · have hroom := hs.room
        have htake : (s.input.take length).length ≤ length := List.length_take_le _ _
        rw [List.map_append, List.sum_append, List.map_singleton, List.sum_singleton]
        show _ + (s.input.take length).length ≤ s.total
        omega
    exact ⟨hnext, fun _ _ => hnext⟩

lemma keeps_unpackMember : Keeps (Contained destination) (unpackMember destination)
    (fun _ => Contained destination) (Contained destination) := by
  have hread : ∀ n, Keeps (Contained destination) (readExact n) (fun _ => Contained destination)
      (Contained destination) := fun n => keeps_readExact n fun _ input h => h.input input
  refine keeps_bind (hread 2) fun pathLength => ?_
  refine keeps_lift_bind (fun _ h => h) fun _ _ => ?_
  refine keeps_bind (hread _) fun relative => ?_
  refine keeps_lift_bind (fun _ h => h) fun _ _ => ?_
  refine keeps_lift_bind (fun _ h => h) fun _ hvalid => ?_
  have hfresh : ∀ n, Keeps (Fresh destination relative) (readExact n)
      (fun _ => Fresh destination relative) (Contained destination) := fun n =>
    keeps_weaken (keeps_readExact n fun _ input h => Fresh.input input h) (fun _ h => h)
      (fun _ _ h => h) fun _ h => h.contained
  refine keeps_bind keeps_markSeen fun _ => ?_
  refine keeps_bind (hfresh 1) fun executable => ?_
  refine keeps_lift_bind (fun _ h => h.contained) fun _ _ => ?_
  refine keeps_bind (hfresh 8) fun length => ?_
  refine keeps_lift_bind (fun _ h => h.contained) fun _ _ => ?_
  refine keeps_bind keeps_addLength fun _ => ?_
  exact keeps_writeMember (validateMemberPath_eq_ok.mp hvalid)

lemma keeps_unpackMembers (count : ℕ) : Keeps (Contained destination)
    (unpackMembers destination count) (fun _ => Contained destination)
    (Contained destination) := by
  induction count with
  | zero => exact keeps_pure fun s h => ⟨h, h⟩
  | succ count ih => exact keeps_bind keeps_unpackMember fun _ => ih

/-- Whatever the archive is, the files that are created are contained. -/
lemma contained_unpackArchive (destination archive : List UInt8) :
    Contained destination (unpackArchive destination archive).2 := by
  have hread : ∀ n, Keeps (Contained destination) (readExact n) (fun _ => Contained destination)
      (Contained destination) := fun n => keeps_readExact n fun _ input h => h.input input
  have hbody : Keeps (Contained destination) (unpackBody destination archive)
      (fun _ => Contained destination) (Contained destination) := by
    refine keeps_lift_bind (fun _ h => h) fun _ _ => ?_
    refine keeps_bind (hread 8) fun magic => ?_
    refine keeps_lift_bind (fun _ h => h) fun _ _ => ?_
    refine keeps_bind (hread 4) fun count => ?_
    refine keeps_lift_bind (fun _ h => h) fun _ _ => ?_
    refine keeps_bind (keeps_unpackMembers _) fun _ => ?_
    refine keeps_get_bind fun s hs => ?_
    exact keeps_lift (fun t ht => ht ▸ hs) fun _ _ t ht => ht ▸ hs
  have hstart : Contained destination ⟨archive, .empty, 0, .nil, []⟩ :=
    ⟨fun _ h => (by cases h), List.nodup_nil, Nat.zero_le _, Nat.zero_le _⟩
  exact (hbody _ hstart).1

end Containment

end TouchBar.Packages
