import TouchBar.Packages.PackageArchive

/-!
# Packing and unpacking

What is unpacked of a packed archive is a tree with the members of the package as its files
and no directories but those on the way to a file.  Its inspection finds the members of the
package again: nothing that the package did not have as a file has become one, and what is
there of the optional files and of the asset directories was there in the package.
-/

namespace TouchBar.Packages

open TouchBar.Rust TouchBar.Rust.BytePath TouchBar.Lib Outcome

/-! ## Trees with given files -/

section Holds

variable {entries : Entries} {stored : List (List (List UInt8) × List UInt8)}
  {ns q : List (List UInt8)} {content : List UInt8}

/-- The files of a tree are the stored ones, and its directories are on the way to them. -/
structure Holds (stored : List (List (List UInt8) × List UInt8)) (entries : Entries) : Prop where
  plain : entries.Plain
  wf : entries.WF
  files : ∀ q links found, (Node.directory entries).lookup q = some (.file links found) ↔
    links = 1 ∧ (q, found) ∈ stored
  above : ∀ q found, (Node.directory entries).lookup q = some (.directory found) →
    q = [] ∨ ∃ file ∈ stored, q <+: file.1 ∧ q ≠ file.1

lemma holds_nil : Holds [] .nil := by
  have hempty : ∀ q : List (List UInt8), q ≠ [] → (Node.directory .nil).lookup q = none := by
    intro q hq
    cases q with
    | nil => exact absurd rfl hq
    | cons name q => rfl
  refine ⟨trivial, trivial, fun q links found => ?_, fun q found h => ?_⟩
  · rcases eq_or_ne q [] with rfl | hq
    · simp [lookup_nil]
    · simp [hempty q hq]
  · by_contra hne
    rw [not_or] at hne
    rw [hempty q hne.1] at h
    cases h

/-- A file can be stored under names that are neither above nor below those of another. -/
lemma Holds.create (h : Holds stored entries) (hne : ns ≠ []) (hnames : ∀ name ∈ ns, IsName name)
    (hapart : ∀ file ∈ stored, ¬ file.1 <+: ns ∧ ¬ ns <+: file.1) :
    ∃ created, createFile content ns entries = some created ∧
      Holds (stored ++ [(ns, content)]) created := by
  have hroot : (Node.directory entries).Plain := h.plain
  have hfree : (Node.directory entries).lookup ns = none := by
    cases hlookup : (Node.directory entries).lookup ns with
    | none => rfl
    | some found =>
      have hplain : found.Plain := hroot.lookup hlookup
      rcases hplain.cases with ⟨links, found, rfl⟩ | ⟨found, rfl⟩
      · have hstored := ((h.files ns links found).mp hlookup).2
        exact absurd List.prefix_rfl (hapart _ hstored).1
      · rcases h.above ns found hlookup with rfl | ⟨file, hfile, habove, -⟩
        · exact absurd rfl hne
        · exact absurd habove (hapart file hfile).2
  have hway : ∀ r links found, r <+: ns →
      (Node.directory entries).lookup r ≠ some (.file links found) := fun r links found hr hlookup =>
    (hapart _ ((h.files r links found).mp hlookup).2).1 hr
  obtain ⟨created, hcreated⟩ := @createFile_returns entries content ns h.plain hne hway hfree
  refine ⟨created, hcreated, h.plain.createFile hcreated, h.wf.createFile hnames hcreated,
    fun q links found => ?_, fun q found hlookup => ?_⟩
  · rw [List.mem_append, List.mem_singleton, Prod.mk.injEq]
    by_cases hq : q = ns
    · subst hq
      have hnew : (q, found) ∉ stored := fun hmem => (hapart _ hmem).1 List.prefix_rfl
      rw [lookup_createFile hcreated, Option.some.injEq, Node.file.injEq, or_iff_right hnew]
      simp only [eq_comm, true_and]
    · rw [lookup_createFile_file hcreated hq, h.files]
      simp only [hq, false_and, or_false]
  · rcases lookup_createFile_directory hcreated hlookup with ⟨habove, hlt⟩ | ⟨before, hbefore⟩
    · exact .inr ⟨(ns, content), by simp, habove, hlt⟩
    · rcases h.above q before hbefore with hroot | ⟨file, hfile, habove⟩
      · exact .inl hroot
      · exact .inr ⟨file, List.mem_append_left _ hfile, habove⟩

end Holds

/-! ## Reading what was written -/

section Reading

variable {destination rest bytes content : List UInt8} {s t : Unpacking} {member : PackageMember}

lemma readExact_append {n : ℕ} (hn : bytes.length = n) (h : s.input = bytes ++ rest) :
    readExact n s = (ok bytes, { s with input := rest }) := by
  have hlong : ¬ s.input.length < n := by
    rw [h, List.length_append]
    omega
  rw [readExact, if_neg hlong, h, List.take_left' hn, List.drop_left' hn]

lemma lift_bailIf {c : Bool} {message : String} (h : c = false) :
    (Prog.lift (bailIf c message) : Prog Unpacking String Unit) s = (ok (), s) := by
  rw [Prog.lift, bailIf_eq_ok.mpr h]

lemma leValue_flagByte (executable : Bool) :
    leValue [flagByte executable] = if executable then 1 else 0 := by
  cases executable <;> rfl

lemma markSeen_eq {relative : List UInt8} (h : parts relative ∉ s.seen) :
    markSeen relative s = (ok (), { s with seen := s.seen.insert (parts relative) }) := by
  have hnew : s.seen.contains (parts relative) = false := by
    rw [← Bool.not_eq_true, BTreeSet.contains_iff]
    exact h
  rw [markSeen, hnew, if_neg Bool.false_ne_true]

lemma addLength_eq {length : ℕ} (h : s.total + length ≤ maxPackageBytes) :
    addLength length s = (ok (), { s with total := s.total + length }) := by
  have hmax : maxPackageBytes < 2 ^ 64 := by decide
  rw [addLength, Prog.bind_of_ok (show Prog.get id s = (ok s, s) from rfl),
    Prog.bind_of_ok (lift_bailIf (decide_eq_false (by omega))),
    Prog.bind_of_ok (lift_bailIf (decide_eq_false (by omega)))]
  rfl

lemma writeMember_eq {relative : List UInt8} {executable : Bool} {created : Entries}
    (h : s.input = content ++ rest) (hfile : endsAsDirectory relative = false)
    (hcreated : createFile content (names relative) s.entries = some created) :
    writeMember destination relative executable content.length s =
      (ok (), { s with
        input := rest
        entries := created
        created := s.created ++ [⟨join destination relative, executable, content⟩] }) := by
  have htake : s.input.take content.length = content := by rw [h, List.take_left' rfl]
  have hdrop : s.input.drop content.length = rest := by rw [h, List.drop_left' rfl]
  have hwhole : bailIf (content.length ≠ content.length) "archive member is truncated" =
      (ok () : Outcome String Unit) := bailIf_eq_ok.mpr (by simp)
  rw [writeMember, htake, hdrop, hfile]
  simp only [Bool.false_eq_true, if_false, hcreated, hwhole]

/-- A record of an archive is unpacked to the member that it was written for. -/
lemma unpackMember_archived {created : Entries} (hfits : Fits member content)
    (hinput : s.input = archivedBytes member content ++ rest)
    (hvalid : ValidPath member.relative) (hseen : parts member.relative ∉ s.seen)
    (htotal : s.total + member.length ≤ maxPackageBytes)
    (hfile : endsAsDirectory member.relative = false)
    (hcreated : createFile content (names member.relative) s.entries = some created) :
    unpackMember destination s =
      (ok (), {
        input := rest
        seen := s.seen.insert (parts member.relative)
        total := s.total + member.length
        entries := created
        created := s.created ++
          [⟨join destination member.relative, member.executable, content⟩] }) := by
  have hpath : maxArchivePathBytes < 256 ^ 2 := by decide
  have hlength : maxPackageFileBytes < 256 ^ 8 := by decide
  have hpathLength := hfits.path_le
  have hfileLength := hfits.length_le
  have hne : member.relative.length ≠ 0 := by
    rw [Ne, List.length_eq_zero_iff]
    exact hvalid.nonempty
  have hsize : leValue (leBytes 2 member.relative.length) = member.relative.length :=
    leValue_leBytes (by omega)
  have hcount : leValue (leBytes 8 member.length) = member.length := leValue_leBytes (by omega)
  have hflag : decide (leValue [flagByte member.executable] = 1) = member.executable := by
    rw [leValue_flagByte]
    cases member.executable <;> rfl
  have hflag_le : ¬ 1 < leValue [flagByte member.executable] := by
    rw [leValue_flagByte]
    split_ifs <;> omega
  rw [archivedBytes, List.append_assoc, List.append_assoc, List.append_assoc, List.append_assoc]
    at hinput
  rw [unpackMember, Prog.bind_of_ok (readExact_append (leBytes_length 2 _) hinput),
    hsize, Prog.bind_of_ok (lift_bailIf (by simp [hne, hpathLength])),
    Prog.bind_of_ok (readExact_append rfl rfl),
    Prog.bind_of_ok (lift_bailIf (by simp [hvalid.utf8])),
    Prog.bind_of_ok (Prog.lift_eq_ok.mpr ⟨validateMemberPath_eq_ok.mpr hvalid, rfl⟩)]
  refine Eq.trans (Prog.bind_of_ok (markSeen_eq hseen)) ?_
  rw [Prog.bind_of_ok (readExact_append (List.length_singleton (a := _)) rfl),
    Prog.bind_of_ok (lift_bailIf (decide_eq_false hflag_le)),
    Prog.bind_of_ok (readExact_append (leBytes_length 8 _) rfl), hcount,
    Prog.bind_of_ok (lift_bailIf (decide_eq_false (by omega)))]
  refine Eq.trans (Prog.bind_of_ok (addLength_eq htotal)) ?_
  rw [hflag, ← hfits.length_eq]
  exact writeMember_eq rfl hfile hcreated

end Reading

/-! ## Reading all records -/

section Records

variable {destination rest : List UInt8} {s : Unpacking}
  {stored : List (List (List UInt8) × List UInt8)}

/-- A member with its content, as an inspection finds it. -/
structure Storable (m : PackageMember × List UInt8) : Prop where
  fits : Fits m.1 m.2
  valid : ValidPath m.1.relative
  file : endsAsDirectory m.1.relative = false

/-- The names of a member with its content. -/
def storedMember (m : PackageMember × List UInt8) : List (List UInt8) × List UInt8 :=
  (names m.1.relative, m.2)

/-- Neither of two files is above the other. -/
def Apart (file other : List (List UInt8) × List UInt8) : Prop :=
  ¬ file.1 <+: other.1 ∧ ¬ other.1 <+: file.1

lemma Storable.names_ne_nil {m : PackageMember × List UInt8} (h : Storable m) :
    names m.1.relative ≠ [] := by
  intro hnil
  have hparts := parts_eq_map_names h.valid.normal
  rw [hnil] at hparts
  exact parts_ne_nil h.valid.nonempty hparts

/-- The records of members that are apart are unpacked, each to its member. -/
theorem unpackMembers_archived {members : List (PackageMember × List UInt8)} :
    ∀ {stored : List (List (List UInt8) × List UInt8)} {s : Unpacking},
      (∀ m ∈ members, Storable m) →
      s.input = (members.flatMap fun m => archivedBytes m.1 m.2) ++ rest →
      Holds stored s.entries → (stored ++ members.map storedMember).Pairwise Apart →
      (∀ key ∈ s.seen, ∃ file ∈ stored, key = file.1.map .normal) →
      s.total + (members.map fun m => m.1.length).sum ≤ maxPackageBytes →
      ∃ t, unpackMembers destination members.length s = (ok (), t) ∧ t.input = rest ∧
        Holds (stored ++ members.map storedMember) t.entries := by
  induction members with
  | nil =>
    intro stored s _ hinput hholds _ _ _
    rw [List.map_nil, List.append_nil]
    exact ⟨s, rfl, hinput, hholds⟩
  | cons m members ih =>
    intro stored s hmembers hinput hholds hapart hseen htotal
    have hm := hmembers m List.mem_cons_self
    have hparts := parts_eq_map_names hm.valid.normal
    rw [List.flatMap_cons, List.append_assoc] at hinput
    rw [List.map_cons, List.sum_cons] at htotal
    have hmiddle : stored ++ (m :: members).map storedMember =
        stored ++ [storedMember m] ++ members.map storedMember := by
      rw [List.map_cons, List.append_assoc, List.singleton_append]
    have hothers : ∀ file ∈ stored, Apart file (storedMember m) := fun file hfile =>
      (List.pairwise_append.mp hapart).2.2 file hfile _ List.mem_cons_self
    -- the path is new: it would be that of a file that the new one is apart from
    have hnew : parts m.1.relative ∉ s.seen := by
      intro hmem
      obtain ⟨file, hfile, hkey⟩ := hseen _ hmem
      rw [hparts] at hkey
      have hnames : names m.1.relative = file.1 :=
        List.map_injective_iff.mpr (fun _ _ h => Part.normal.inj h) hkey
      exact (hothers file hfile).1 (by rw [storedMember, hnames])
    obtain ⟨created, hcreated, hholds'⟩ := @Holds.create s.entries stored (names m.1.relative) m.2
      hholds hm.names_ne_nil (fun _ => isName_of_mem_names hm.valid.normal) hothers
    have hstep := @unpackMember_archived destination _ m.2 s m.1 created hm.fits hinput hm.valid
      hnew (by omega) hm.file hcreated
    rw [List.length_cons, unpackMembers, Prog.bind_of_ok hstep, hmiddle]
    refine ih (fun n hn => hmembers n (List.mem_cons_of_mem _ hn)) rfl hholds' (hmiddle ▸ hapart)
      (fun key hkey => ?_) (by rw [Nat.add_assoc]; exact htotal)
    rcases BTreeSet.mem_insert.mp hkey with rfl | hkey
    · exact ⟨storedMember m, by simp, hparts⟩
    · obtain ⟨file, hfile, heq⟩ := hseen key hkey
      exact ⟨file, List.mem_append_left _ hfile, heq⟩

end Records

/-! ## What an inspection adds to the paths of the manifest -/

section Collected

variable {root : Node} {entries : Entries} {paths collected : PathSet} {name : List UInt8}
  {ns : List (List UInt8)} {directories : List (List UInt8)}

/-- The names of the optional files that exist. -/
def optionalNames (root : Node) (files : List (List UInt8)) : List (List (List UInt8)) :=
  (files.filter root.exists).map ([·])

/-- The names of the files below a directory of the root. -/
def filesBelow (root : Node) (directory : List UInt8) : List (List (List UInt8)) :=
  match root.lookup [directory] with
  | some (.directory entries) => entries.files.map (directory :: ·)
  | _ => []

/-- If there is an asset directory, it is one itself and holds only files and directories. -/
def PlainBelow (root : Node) (directory : List UInt8) : Prop :=
  root.exists directory = true →
    ∃ entries, root.lookup [directory] = some (.directory entries) ∧ entries.Plain

lemma exists_eq_true : root.exists name = true ↔
    ∃ node found, root.lookup [name] = some node ∧ node.resolve = some found := by
  rw [Node.exists, Option.isSome_iff_exists]
  simp only [Option.bind_eq_some_iff]
  exact exists_comm.trans (by simp only [exists_and_left])

lemma filesBelow_of_directory (h : root.lookup [name] = some (.directory entries)) :
    filesBelow root name = entries.files.map (name :: ·) := by
  rw [filesBelow, h]

lemma filesBelow_of_not_exists (h : ¬ root.exists name = true) : filesBelow root name = [] := by
  rw [filesBelow]
  split
  · rename_i entries hlookup
    exact absurd (exists_eq_true.mpr ⟨_, _, hlookup, rfl⟩) h
  · rfl

/-- What has something below it exists. -/
lemma exists_of_below (h : (root.lookup (name :: ns)).isSome) (hne : ns ≠ []) :
    root.exists name = true := by
  obtain ⟨above, entries, hlookup, hresolve⟩ := @resolve_of_lookup_append root [name] ns h hne
  exact exists_eq_true.mpr ⟨above, _, hlookup, hresolve⟩

/-- The files below an asset directory are the names that lead from there to a file. -/
lemma mem_filesBelow (hwf : entries.WF) (h : PlainBelow (.directory entries) name) :
    ns ∈ filesBelow (.directory entries) name ↔ ∃ rest, ns = name :: rest ∧ rest ≠ [] ∧
      ∃ links content, (Node.directory entries).lookup ns = some (.file links content) := by
  have hget : ∀ node, (Node.directory entries).lookup [name] = some node → node.WF := by
    intro node hnode
    rw [lookup_directory_cons] at hnode
    obtain ⟨child, hchild, hsame⟩ := Option.bind_eq_some_iff.mp hnode
    exact Option.some.inj hsame ▸ (hwf.get hchild).2
  by_cases hexists : (Node.directory entries).exists name = true
  · obtain ⟨below, hlookup, hplain⟩ := h hexists
    have hlookups : ∀ rest, (Node.directory entries).lookup (name :: rest) =
        (Node.directory below).lookup rest := by
      intro rest
      rw [← List.singleton_append, lookup_append, hlookup, Option.bind_some]
    rw [filesBelow_of_directory hlookup, List.mem_map]
    have hfiles : ∀ rest, rest ∈ below.files ↔
        ∃ links content, (Node.directory below).lookup rest = some (.file links content) :=
      fun rest => @mem_files_iff (.directory below) rest (hget _ hlookup) hplain
    constructor
    · rintro ⟨rest, hrest, rfl⟩
      refine ⟨rest, rfl, ?_, ?_⟩
      · rintro rfl
        obtain ⟨links, content, hfile⟩ := (hfiles []).mp hrest
        cases hfile
      · rw [hlookups]
        exact (hfiles rest).mp hrest
    · rintro ⟨rest, rfl, -, hfile⟩
      rw [hlookups] at hfile
      exact ⟨rest, (hfiles rest).mpr hfile, rfl⟩
  · rw [filesBelow_of_not_exists hexists]
    refine iff_of_false List.not_mem_nil ?_
    rintro ⟨rest, rfl, hne, links, content, hfile⟩
    exact hexists (exists_of_below (by rw [hfile]; rfl) hne)

lemma addOptionalFiles_eq {files : List (List UInt8)} :
    addOptionalFiles root paths files = insertNames paths (optionalNames root files) := by
  induction files generalizing paths with
  | nil => rfl
  | cons name files ih =>
    rw [addOptionalFiles, List.foldl_cons]
    refine Eq.trans ih ?_
    rw [optionalNames, optionalNames, List.filter_cons]
    split_ifs <;> rfl

/-- The loop over the asset directories adds the files below them, where these are plain. -/
lemma addAssetDirectories_eq_ok (h : addAssetDirectories root directories paths = ok collected) :
    (∀ directory ∈ directories, PlainBelow root directory) ∧
      collected = insertNames paths (directories.flatMap (filesBelow root)) := by
  induction directories generalizing paths with
  | nil =>
    rw [addAssetDirectories, ok.injEq] at h
    exact ⟨fun _ hmem => absurd hmem List.not_mem_nil, h.symm⟩
  | cons directory directories ih =>
    rw [addAssetDirectories] at h
    rw [List.flatMap_cons, insertNames_append]
    split_ifs at h with hexists
    · obtain ⟨first, hfirst, h⟩ := bind_eq_ok.mp h
      obtain ⟨hothers, rfl⟩ := ih h
      rw [collectDirectoryMembers] at hfirst
      split at hfirst
      · rename_i entries hlookup
        obtain ⟨hplain, rfl⟩ := collectEntries_eq_ok _ _ _ _ hfirst
        rw [filesBelow_of_directory hlookup]
        refine ⟨List.forall_mem_cons.mpr ⟨fun _ => ⟨entries, hlookup, hplain⟩, hothers⟩, rfl⟩
      · cases hfirst
    · obtain ⟨hothers, rfl⟩ := ih h
      rw [filesBelow_of_not_exists hexists]
      exact ⟨List.forall_mem_cons.mpr ⟨fun h => absurd h hexists, hothers⟩, rfl⟩

lemma addAssetDirectories_returns (h : ∀ directory ∈ directories, PlainBelow root directory)
    (hlen : (insertNames paths (directories.flatMap (filesBelow root))).len ≤ maxPackageFiles) :
    addAssetDirectories root directories paths =
      ok (insertNames paths (directories.flatMap (filesBelow root))) := by
  induction directories generalizing paths with
  | nil => rfl
  | cons directory directories ih =>
    obtain ⟨hfirst, hothers⟩ := List.forall_mem_cons.mp h
    rw [List.flatMap_cons, insertNames_append] at hlen ⊢
    rw [addAssetDirectories]
    split_ifs with hexists
    · obtain ⟨entries, hlookup, hplain⟩ := hfirst hexists
      have hbelow := filesBelow_of_directory hlookup
      have hcollected : collectDirectoryMembers root directory paths =
          ok (insertNames paths (filesBelow root directory)) := by
        rw [collectDirectoryMembers, hlookup, hbelow]
        refine collectEntries_returns [directory] entries paths hplain ?_
        rw [hbelow] at hlen
        exact len_insertNames_le.trans hlen
      rw [hcollected, ok_bind]
      exact ih hothers hlen
    · rw [filesBelow_of_not_exists hexists] at hlen ⊢
      exact ih hothers hlen

end Collected

/-! ## The paths of the unpacked tree -/

section Paths

variable {entries created : Entries} {base paths : PathSet}
  {stored : List (List (List UInt8) × List UInt8)}

/-- The names that an inspection adds to the paths of the manifest. -/
def addedNames (root : Node) : List (List (List UInt8)) :=
  optionalNames root optionalFiles ++ assetDirectories.flatMap (filesBelow root)

lemma mem_addedNames {root : Node} {ns : List (List UInt8)} : ns ∈ addedNames root ↔
    (∃ name ∈ optionalFiles, root.exists name = true ∧ ns = [name]) ∨
      ∃ directory ∈ assetDirectories, ns ∈ filesBelow root directory := by
  rw [addedNames, List.mem_append, List.mem_flatMap, optionalNames, List.mem_map]
  simp only [List.mem_filter, and_assoc, eq_comm]

lemma isName_optionalFiles : ∀ name ∈ optionalFiles, IsName name := by decide +kernel

/-- Symbolic links lead to well-formed nodes. -/
theorem Node.WF.resolve {found : Node} : ∀ node : Node, node.WF → node.resolve = some found →
    found.WF
  | .file _ _, h, hresolve => Option.some.inj hresolve ▸ h
  | .directory _, h, hresolve => Option.some.inj hresolve ▸ h
  | .symlink target, h, hresolve => Node.WF.resolve target h hresolve
  | .dangling, _, hresolve => by cases hresolve
  | .special, h, hresolve => Option.some.inj hresolve ▸ h

/-- The names that lead to a node are names of entries. -/
lemma isName_of_lookup {node : Node} {ns : List (List UInt8)} (hwf : node.WF)
    (h : (node.lookup ns).isSome) : ∀ name ∈ ns, IsName name := by
  induction ns generalizing node with
  | nil => exact fun name hname => absurd hname List.not_mem_nil
  | cons name ns ih =>
    rw [Node.lookup, Node.entry] at h
    split at h
    · rename_i entries hresolve
      have hentries : entries.WF := Node.WF.resolve node hwf hresolve
      cases hget : entries.get name with
      | none => rw [hget] at h; cases h
      | some child =>
        rw [hget, Option.bind_some] at h
        obtain ⟨hname, hchild⟩ := hentries.get hget
        exact List.forall_mem_cons.mpr ⟨hname, ih hchild h⟩
    · cases h

/-- What the package and the unpacked tree have in common. -/
structure SameFiles (entries : Entries) (base paths : PathSet)
    (stored : List (List (List UInt8) × List UInt8)) : Prop where
  wf : entries.WF
  below : ∀ directory ∈ assetDirectories, PlainBelow (.directory entries) directory
  paths_eq : paths = insertNames base (addedNames (.directory entries))
  member : ∀ key, paths.containsKey key = true → ∃ file ∈ stored, key = file.1.map .normal
  file : ∀ file ∈ stored, paths.containsKey (file.1.map .normal) = true ∧
    (Node.directory entries).lookup file.1 = some (.file 1 file.2)

lemma isName_addedNames (hwf : entries.WF)
    (hbelow : ∀ directory ∈ assetDirectories, PlainBelow (.directory entries) directory) :
    ∀ ns ∈ addedNames (.directory entries), ∀ name ∈ ns, IsName name := by
  intro ns hns
  rcases mem_addedNames.mp hns with ⟨name, hname, -, rfl⟩ | ⟨directory, hdirectory, hfile⟩
  · rw [List.forall_mem_singleton]
    exact isName_optionalFiles name hname
  · obtain ⟨rest, rfl, -, links, content, hlookup⟩ :=
      (mem_filesBelow hwf (hbelow directory hdirectory)).mp hfile
    have hnode : (Node.directory entries).WF := hwf
    exact isName_of_lookup hnode (by rw [hlookup]; rfl)

/-- What is found below an asset directory of the unpacked tree was there in the package. -/
lemma SameFiles.plainBelow (h : SameFiles entries base paths stored)
    (hholds : Holds stored created) :
    ∀ directory ∈ assetDirectories, PlainBelow (.directory created) directory := by
  intro directory hdirectory hexists
  obtain ⟨node, -, hnode, -⟩ := exists_eq_true.mp hexists
  have hplain : (Node.directory created).Plain := hholds.plain
  have hfound : node.Plain := hplain.lookup hnode
  rcases hfound.cases with ⟨links, content, rfl⟩ | ⟨below, rfl⟩
  · -- the package would have a file where it has the asset directory
    have hstored := ((hholds.files _ _ _).mp hnode).2
    have hfile := (h.file _ hstored).2
    obtain ⟨below, hbelow, -⟩ := h.below directory hdirectory
      (exists_eq_true.mpr ⟨_, _, hfile, rfl⟩)
    rw [hfile] at hbelow
    cases hbelow
  · exact ⟨below, hnode, hfound⟩

/-- The same names are added to the paths of the manifest, apart from those that are there. -/
lemma SameFiles.mem_addedNames_iff (h : SameFiles entries base paths stored)
    (hholds : Holds stored created) {key : List Part} (hbase : base.get key = none) :
    key ∈ (addedNames (.directory entries)).map (List.map .normal) ↔
      key ∈ (addedNames (.directory created)).map (List.map .normal) := by
  have hget : paths.get key = if key ∈ (addedNames (.directory entries)).map (List.map .normal)
      then some (canonical key) else none := by
    rw [h.paths_eq, get_insertNames (isName_addedNames h.wf h.below), hbase, Option.none_or]
  -- a stored file is among the added names of the package
  have hadded : ∀ file ∈ stored, key = file.1.map .normal →
      key ∈ (addedNames (.directory entries)).map (List.map .normal) := by
    intro file hfile hkey
    by_contra hnone
    obtain ⟨path, hpath⟩ := BTreeMap.containsKey_iff.mp (h.file file hfile).1
    rw [← hkey, hget, if_neg hnone] at hpath
    cases hpath
  constructor
  · intro hmem
    obtain ⟨file, hfile, hkey⟩ := h.member key
      (BTreeMap.containsKey_iff.mpr ⟨_, hget.trans (if_pos hmem)⟩)
    obtain ⟨ns, hns, rfl⟩ := List.mem_map.mp hmem
    have heq : ns = file.1 := List.map_injective_iff.mpr (fun _ _ h => Part.normal.inj h) hkey
    subst heq
    have hlookup := (hholds.files file.1 1 file.2).mpr ⟨rfl, hfile⟩
    refine List.mem_map_of_mem (mem_addedNames.mpr ?_)
    rcases mem_addedNames.mp hns with ⟨name, hname, -, heq⟩ | ⟨directory, hdirectory, hbelow⟩
    · rw [heq] at hlookup
      exact .inl ⟨name, hname, exists_eq_true.mpr ⟨_, _, hlookup, rfl⟩, heq⟩
    · obtain ⟨rest, heq, hrest, -⟩ := (mem_filesBelow h.wf (h.below _ hdirectory)).mp hbelow
      exact .inr ⟨directory, hdirectory,
        (mem_filesBelow hholds.wf (h.plainBelow hholds _ hdirectory)).mpr
          ⟨rest, heq, hrest, 1, file.2, hlookup⟩⟩
  · intro hmem
    obtain ⟨ns, hns, rfl⟩ := List.mem_map.mp hmem
    rcases mem_addedNames.mp hns with ⟨name, hname, hexists, rfl⟩ | ⟨directory, hdirectory, hbelow⟩
    · obtain ⟨node, -, hnode, -⟩ := exists_eq_true.mp hexists
      have hplain : (Node.directory created).Plain := hholds.plain
      rcases (hplain.lookup hnode).cases with ⟨links, content, rfl⟩ | ⟨below, rfl⟩
      · exact hadded _ ((hholds.files _ _ _).mp hnode).2 rfl
      · -- a directory is on the way to a file, which the package has too
        rcases hholds.above _ _ hnode with hnil | ⟨file, hfile, ⟨rest, heq⟩, hne⟩
        · cases hnil
        · have hlookup := (h.file file hfile).2
          rw [← heq, List.singleton_append] at hlookup
          have hrest : rest ≠ [] := by
            rintro rfl
            exact hne (by rw [← heq, List.append_nil])
          refine List.mem_map_of_mem (mem_addedNames.mpr (.inl ⟨name, hname, ?_, rfl⟩))
          exact exists_of_below (by rw [hlookup]; rfl) hrest
    · obtain ⟨rest, -, -, links, content, hlookup⟩ :=
        (mem_filesBelow hholds.wf (h.plainBelow hholds _ hdirectory)).mp hbelow
      exact hadded _ ((hholds.files _ _ _).mp hlookup).2 rfl

/-- An inspection collects the paths of the package from the unpacked tree. -/
theorem SameFiles.collects (h : SameFiles entries base paths stored)
    (hholds : Holds stored created) (hcount : paths.len ≤ maxPackageFiles) :
    addAssetDirectories (.directory created) assetDirectories
      (addOptionalFiles (.directory created) base optionalFiles) = ok paths := by
  have hsame : insertNames base (addedNames (.directory created)) = paths := by
    refine BTreeMap.eq_of_get_eq fun key => ?_
    rw [h.paths_eq, get_insertNames (isName_addedNames h.wf h.below),
      get_insertNames (isName_addedNames hholds.wf (h.plainBelow hholds))]
    cases hbase : base.get key with
    | some path => rw [Option.some_or, Option.some_or]
    | none => simp only [h.mem_addedNames_iff hholds hbase]
  rw [addedNames, insertNames_append] at hsame
  rw [addOptionalFiles_eq]
  have hlen : (insertNames (insertNames base (optionalNames (.directory created) optionalFiles))
      (assetDirectories.flatMap (filesBelow (.directory created)))).len ≤ maxPackageFiles := by
    rw [hsame]
    exact hcount
  rw [addAssetDirectories_returns (h.plainBelow hholds) hlen, hsame]

end Paths

/-! ## Inspected packages -/

section Inspected

variable {parseManifest : List UInt8 → Outcome String PackageManifest}
  {sha256 : List UInt8 → String} {package : Node} {inspection : Inspection}
  {entries created : Entries} {paths : PathSet}

lemma lstat_eq_file {root : Node} {path content : List UInt8} {links : ℕ} :
    root.lstat path = some (.file links content) ↔
      endsAsDirectory path = false ∧ root.lookup (names path) = some (.file links content) := by
  rw [Node.lstat]
  cases hlookup : root.lookup (names path) with
  | none => simp
  | some node =>
    cases hends : endsAsDirectory path with
    | false => simp
    | true =>
      simp only [if_true]
      cases node.resolve with
      | none => simp
      | some found => cases found <;> simp

lemma names_of_parts_eq {path : List UInt8} {ns : List (List UInt8)}
    (h : parts path = ns.map .normal) : names path = ns := by
  rw [names, h, List.filterMap_map]
  exact List.filterMap_some

/-- A path that is put into a set stays there. -/
lemma containsKey_foldl_insertPath {l : List (List UInt8)} {path : List UInt8} {paths : PathSet}
    (h : path ∈ l ∨ paths.containsKey (parts path) = true) :
    (l.foldl insertPath paths).containsKey (parts path) = true := by
  induction l generalizing paths with
  | nil => exact h.resolve_left List.not_mem_nil
  | cons first l ih =>
    refine ih ?_
    rw [BTreeMap.containsKey, get_insertPath]
    rcases h with h | h
    · rcases List.mem_cons.mp h with rfl | h
      · refine .inr ?_
        rw [if_pos rfl]
        cases paths.get (parts path) <;> rfl
      · exact .inl h
    · refine .inr ?_
      obtain ⟨found, hfound⟩ := BTreeMap.containsKey_iff.mp h
      rw [hfound, Option.some_or]
      rfl

lemma manifestPaths_eq (manifest : PackageManifest) : manifestPaths manifest =
    (manifestFileName :: manifest.artifactPaths.map Text.asBytes).foldl insertPath .empty := by
  rw [manifestPaths, List.foldl_cons, List.foldl_map]

namespace Stages

variable (h : Stages parseManifest sha256 package inspection entries paths)

include h

lemma paths_spec : (∀ directory ∈ assetDirectories, PlainBelow (.directory entries) directory) ∧
    paths = insertNames (manifestPaths inspection.manifest) (addedNames (.directory entries)) := by
  have hpaths := h.paths_eq
  rw [h.root_eq, addOptionalFiles_eq] at hpaths
  obtain ⟨hbelow, hcollected⟩ := addAssetDirectories_eq_ok hpaths
  rw [addedNames, insertNames_append]
  exact ⟨hbelow, hcollected⟩

lemma keyed : Keyed paths := by
  rw [h.paths_spec.2, manifestPaths_eq, insertNames]
  exact keyed_empty_paths.foldl.foldl

/-- The manifest and the artifacts are among the paths. -/
lemma containsKey_named {path : List UInt8}
    (hpath : path ∈ manifestFileName :: inspection.manifest.artifactPaths.map Text.asBytes) :
    paths.containsKey (parts path) = true := by
  rw [h.paths_spec.2, insertNames, manifestPaths_eq]
  exact containsKey_foldl_insertPath (.inr (containsKey_foldl_insertPath (.inl hpath)))

/-- The member of a path. -/
lemma exists_member {key : List Part} (hkey : paths.containsKey key = true) :
    ∃ m ∈ inspection.contents, parts m.1.relative = key := by
  obtain ⟨path, hpath⟩ := BTreeMap.containsKey_iff.mp hkey
  obtain ⟨member, hmember, hinspected⟩ :=
    forall₂_exists_right h.members_forall₂ (BTreeMap.mem_values_iff.mpr ⟨key, hpath⟩)
  refine ⟨_, List.mem_map_of_mem hmember, ?_⟩
  show parts member.relative = key
  rw [hinspected.relative, ← h.keyed key path hpath]

lemma storable : ∀ m ∈ inspection.contents, Storable m := by
  intro m hm
  have hfits := h.fits m hm
  obtain ⟨member, hmember, rfl⟩ := List.mem_map.mp hm
  obtain ⟨path, -, hinspected⟩ := forall₂_exists_left h.members_forall₂ hmember
  obtain rfl := hinspected.relative
  exact ⟨hfits, hinspected.valid, (lstat_eq_file.mp hinspected.regular).1⟩

/-- The package and the files of its members. -/
lemma sameFiles (hwf : entries.WF) : SameFiles entries (manifestPaths inspection.manifest) paths
    (inspection.contents.map storedMember) := by
  refine ⟨hwf, h.paths_spec.1, h.paths_spec.2, fun key hkey => ?_, fun file hfile => ?_⟩
  · obtain ⟨m, hm, rfl⟩ := h.exists_member hkey
    exact ⟨_, List.mem_map_of_mem hm, parts_eq_map_names (h.storable m hm).valid.normal⟩
  · obtain ⟨m, hm, rfl⟩ := List.mem_map.mp hfile
    have hparts := parts_eq_map_names (h.storable m hm).valid.normal
    obtain ⟨member, hmember, rfl⟩ := List.mem_map.mp hm
    obtain ⟨path, hpath, hinspected⟩ := forall₂_exists_left h.members_forall₂ hmember
    obtain rfl := hinspected.relative
    refine ⟨?_, ?_⟩
    · obtain ⟨key, hkey⟩ := BTreeMap.mem_values_iff.mp hpath
      have hsame := h.keyed key _ hkey
      show paths.containsKey ((names member.relative).map .normal) = true
      rw [← hparts]
      exact BTreeMap.containsKey_iff.mpr ⟨_, hsame ▸ hkey⟩
    · rw [← h.root_eq]
      exact (lstat_eq_file.mp hinspected.regular).2

/-- No member of a package is above another one. -/
lemma apart (hwf : entries.WF) : (inspection.contents.map storedMember).Pairwise Apart := by
  have hsame := h.sameFiles hwf
  have hkeys : (inspection.contents.map storedMember).map (fun file => file.1.map Part.normal) =
      paths.keys := by
    have hrelative : inspection.members.map PackageMember.relative = paths.values := by
      have hforall := h.members_forall₂
      generalize paths.values = values at hforall ⊢
      generalize inspection.members = members at hforall ⊢
      induction hforall with
      | nil => rfl
      | cons hinspected _ ih => rw [List.map_cons, ih, hinspected.relative]
    have hvalues : paths.values.map parts = paths.keys := by
      rw [BTreeMap.values, BTreeMap.keys, List.map_map]
      exact List.map_congr_left fun e he =>
        (h.keyed e.1 e.2 (BTreeMap.get_eq_some_iff.mpr he)).symm
    rw [← hvalues, ← hrelative, List.map_map, List.map_map, Inspection.contents, List.map_map]
    refine List.map_congr_left fun member hmember => ?_
    have hm := h.storable _ (List.mem_map_of_mem hmember)
    exact (parts_eq_map_names hm.valid.normal).symm
  have hnodup : (inspection.contents.map storedMember).Nodup := by
    refine List.Nodup.of_map (fun file => file.1.map Part.normal) ?_
    rw [hkeys]
    exact BTreeMap.keys_nodup paths
  have heq : ∀ file ∈ inspection.contents.map storedMember,
      ∀ other ∈ inspection.contents.map storedMember, file.1 <+: other.1 → file = other := by
    intro file hfile other hother habove
    have hfound := (hsame.file file hfile).2
    have hfound' := (hsame.file other hother).2
    have hnames := eq_of_prefix_of_files hfound hfound' habove
    rw [hnames, hfound', Option.some.injEq, Node.file.injEq] at hfound
    exact Prod.ext hnames hfound.2.symm
  refine hnodup.pairwise_of_forall_ne fun file hfile other hother hne => ⟨?_, ?_⟩
  · exact fun habove => hne (heq file hfile other hother habove)
  · exact fun habove => hne (heq other hother file hfile habove).symm

/-- A file of the package that is one of its members is in the unpacked tree too. -/
lemma lstat_unpacked (hwf : entries.WF)
    (hholds : Holds (inspection.contents.map storedMember) created) {path content : List UInt8}
    (hstat : inspection.root.lstat path = some (.file 1 content))
    (hkey : paths.containsKey (parts path) = true) :
    (Node.directory created).lstat path = some (.file 1 content) := by
  have hsame := h.sameFiles hwf
  rw [h.root_eq] at hstat
  obtain ⟨hends, hlookup⟩ := lstat_eq_file.mp hstat
  obtain ⟨file, hfile, hparts⟩ := hsame.member _ hkey
  have hfound := (hsame.file file hfile).2
  rw [names_of_parts_eq hparts, hfound, Option.some.injEq, Node.file.injEq] at hlookup
  refine lstat_eq_file.mpr ⟨hends, ?_⟩
  rw [names_of_parts_eq hparts, ← hlookup.2]
  exact (hholds.files file.1 1 file.2).mpr ⟨rfl, hfile⟩

lemma content_unpacked (hwf : entries.WF)
    (hholds : Holds (inspection.contents.map storedMember) created) {path : List UInt8}
    (hstat : inspection.root.lstat path = some (.file 1 (inspection.root.content path)))
    (hkey : paths.containsKey (parts path) = true) :
    (Node.directory created).lstat path =
        some (.file 1 ((Node.directory created).content path)) ∧
      (Node.directory created).content path = inspection.root.content path := by
  have hunpacked := h.lstat_unpacked hwf hholds hstat hkey
  have hcontent := content_eq hunpacked
  rw [hcontent]
  exact ⟨hunpacked, rfl⟩

/-- The stages of the inspection succeed on the unpacked tree, with the same results. -/
theorem unpacked (hwf : entries.WF)
    (hholds : Holds (inspection.contents.map storedMember) created) :
    Stages parseManifest sha256 (.directory created)
      { inspection with root := .directory created } created paths := by
  have hmanifest := h.content_unpacked hwf hholds h.manifest_stat
    (h.containsKey_named List.mem_cons_self)
  have hartifact : ∀ artifact ∈ inspection.manifest.artifactPaths, _ := fun artifact hartifact =>
    h.content_unpacked hwf hholds (h.artifacts_stat artifact hartifact)
      (h.containsKey_named (List.mem_cons_of_mem _ (List.mem_map_of_mem hartifact)))
  have hmember : ∀ path, paths.containsKey (parts path) = true →
      ∀ member, Inspected inspection.root inspection.manifest.entrypoints path member →
      (Node.directory created).lstat path =
          some (.file 1 ((Node.directory created).content path)) ∧
        (Node.directory created).content path = inspection.root.content path :=
    fun path hkey member hinspected => h.content_unpacked hwf hholds hinspected.regular hkey
  have hvalue : ∀ path ∈ paths.values, paths.containsKey (parts path) = true := by
    intro path hpath
    obtain ⟨key, hkey⟩ := BTreeMap.mem_values_iff.mp hpath
    rw [← h.keyed key path hkey]
    exact BTreeMap.containsKey_iff.mpr ⟨path, hkey⟩
  refine ⟨rfl, rfl, hmanifest.1, ?_, ?_, (h.sameFiles hwf).collects hholds h.count_le, h.count_le,
    ?_, h.total_le, ?_, fun artifact hmem => (hartifact artifact hmem).1, ?_⟩
  · rw [hmanifest.2]
    exact h.manifest_le
  · rw [hmanifest.2]
    exact h.manifest_eq
  · refine forall₂_imp_of_mem (fun path hpath member hinspected => ?_) h.members_forall₂
    obtain ⟨hregular, hcontent⟩ := hmember path (hvalue path hpath) member hinspected
    exact ⟨hinspected.relative, hinspected.valid, hregular, hcontent.symm ▸ hinspected.length_eq,
      hinspected.length_le, hinspected.executable⟩
  · have hdigested : ({ inspection with root := .directory created } : Inspection).digested =
        inspection.digested := by
      rw [Inspection.digested_eq, Inspection.digested_eq]
      congr 1
      refine List.flatMap_congr fun member hmem => ?_
      obtain ⟨path, hpath, hinspected⟩ := forall₂_exists_left h.members_forall₂ hmem
      obtain rfl := hinspected.relative
      rw [(hmember _ (hvalue _ hpath) member hinspected).2]
    rw [hdigested]
    exact h.digest_eq
  · refine h.artifacts_eq.trans (List.foldl_ext _ _ _ fun map artifact hmem => ?_)
    rw [(hartifact artifact hmem).2]

end Stages

end Inspected

/-! ## The round trip -/

section RoundTrip

variable {parseManifest : List UInt8 → Outcome String PackageManifest}
  {sha256 : List UInt8 → String} {package : Node} {inspection : Inspection}
  {entries : Entries} {paths : PathSet} {members : List (PackageMember × List UInt8)}

/-- The archive of a package. -/
def Inspection.archive (inspection : Inspection) : List UInt8 :=
  archiveMagic ++ leBytes 4 inspection.members.length ++
    inspection.contents.flatMap fun m => archivedBytes m.1 m.2

lemma packMembers_returns {root : Node} {members : List PackageMember}
    (h : ∀ member ∈ members, member.relative.length ≤ maxArchivePathBytes ∧
      root.lstat member.relative = some (.file 1 (root.content member.relative))) :
    packMembers root members =
      ok (members.flatMap fun member => archivedBytes member (root.content member.relative)) := by
  have hmax : maxArchivePathBytes < 2 ^ 16 := by decide
  induction members with
  | nil => rfl
  | cons member members ih =>
    obtain ⟨⟨hlength, hstat⟩, hrest⟩ := List.forall_mem_cons.mp h
    have hshort : bailIf (2 ^ 16 ≤ member.relative.length) "archive path is too long" =
        (ok () : Outcome String Unit) := bailIf_eq_ok.mpr (decide_eq_false (by omega))
    rw [packMembers, hshort, ok_bind, openRegular_eq_ok.mpr hstat, ok_bind, ih hrest, ok_bind,
      List.flatMap_cons]
    rfl

/-- The archives of packages keep within the limit for archives. -/
lemma length_archived_le (h : ∀ m ∈ members, Fits m.1 m.2) :
    (members.flatMap fun m => archivedBytes m.1 m.2).length ≤
      (members.map fun m => m.1.length).sum + members.length * (maxArchivePathBytes + 11) := by
  induction members with
  | nil => exact Nat.le_refl 0
  | cons m members ih =>
    obtain ⟨hm, hrest⟩ := List.forall_mem_cons.mp h
    have hpath := hm.path_le
    have hone : (archivedBytes m.1 m.2).length = m.1.relative.length + 11 + m.1.length := by
      simp only [archivedBytes, List.length_append, leBytes_length, List.length_singleton,
        hm.length_eq]
      omega
    have := ih hrest
    rw [List.flatMap_cons, List.length_append, hone, List.map_cons, List.sum_cons,
      List.length_cons, Nat.succ_mul]
    omega

lemma length_contents : inspection.contents.length = inspection.members.length :=
  List.length_map _

namespace Stages

variable (h : Stages parseManifest sha256 package inspection entries paths)

include h

lemma length_members_le : inspection.members.length ≤ maxPackageFiles := by
  have hcount := h.count_le
  have hlength := h.members_forall₂.length_eq
  rw [BTreeMap.values, List.length_map] at hlength
  rw [BTreeMap.len] at hcount
  omega

lemma length_members_pos : 0 < inspection.members.length := by
  obtain ⟨m, hm, -⟩ := h.exists_member (h.containsKey_named List.mem_cons_self)
  rw [← length_contents]
  exact List.length_pos_of_mem hm

lemma sum_contents : (inspection.contents.map fun m => m.1.length).sum ≤ maxPackageBytes := by
  have hmap : (inspection.contents.map fun m => m.1.length) =
      inspection.members.map PackageMember.length := by
    rw [Inspection.contents, List.map_map]
    rfl
  rw [hmap]
  exact h.total_le

lemma packDirectory_eq :
    packDirectory parseManifest sha256 package = ok (inspection, inspection.archive) := by
  have hinspect := inspectPackage_eq_ok.mpr ⟨entries, paths, h⟩
  have hpack := @packMembers_returns inspection.root inspection.members fun member hmember => by
    obtain ⟨path, -, hinspected⟩ := forall₂_exists_left h.members_forall₂ hmember
    obtain rfl := hinspected.relative
    exact ⟨hinspected.valid.length_le, hinspected.regular⟩
  rw [packDirectory, hinspect, ok_bind, hpack, ok_bind, Inspection.archive, Inspection.contents,
    List.flatMap_map]
  rfl

lemma length_archive_le : inspection.archive.length ≤ maxArchiveBytes := by
  have hrecords := length_archived_le h.fits
  have hcount := h.length_members_le
  have hsum := h.sum_contents
  have hslack : maxPackageFiles * (maxArchivePathBytes + 11) + 12 ≤ 8 * 1024 * 1024 := by
    norm_num [maxPackageFiles, maxArchivePathBytes]
  have hmagic : archiveMagic.length = 8 := by decide
  have hmul := Nat.mul_le_mul_right (maxArchivePathBytes + 11) hcount
  rw [length_contents] at hrecords
  rw [Inspection.archive, List.length_append, List.length_append, leBytes_length, hmagic]
  calc 8 + 4 + (inspection.contents.flatMap fun m => archivedBytes m.1 m.2).length
    _ ≤ 8 + 4 + (maxPackageBytes + maxPackageFiles * (maxArchivePathBytes + 11)) :=
      Nat.add_le_add_left (hrecords.trans (Nat.add_le_add hsum hmul)) _
    _ = maxPackageBytes + (maxPackageFiles * (maxArchivePathBytes + 11) + 12) := by ring
    _ ≤ maxArchiveBytes := Nat.add_le_add_left hslack _

/-- The archive of a package is unpacked to a tree with the files of the package. -/
theorem unpackArchive_eq (hwf : entries.WF) (destination : List UInt8) :
    ∃ t, unpackArchive destination inspection.archive = (ok (), t) ∧
      Holds (inspection.contents.map storedMember) t.entries := by
  have hcount : leValue (leBytes 4 inspection.members.length) = inspection.members.length :=
    leValue_leBytes (h.length_members_le.trans_lt (by decide))
  have hmax := h.length_members_le
  have hpos := h.length_members_pos
  have hmagic : archiveMagic.length = 8 := by decide
  obtain ⟨t, hrun, hinput, hholds⟩ := @unpackMembers_archived destination [] inspection.contents []
    ⟨inspection.contents.flatMap fun m => archivedBytes m.1 m.2, .empty, 0, .nil, []⟩
    h.storable (List.append_nil _).symm holds_nil (by simpa using h.apart hwf)
    (fun key hkey => absurd hkey BTreeSet.notMem_empty) (by simpa using h.sum_contents)
  rw [length_contents] at hrun
  refine ⟨t, ?_, hholds⟩
  rw [unpackArchive, unpackBody,
    Prog.bind_of_ok (lift_bailIf (decide_eq_false (not_lt.mpr h.length_archive_le))),
    Prog.bind_of_ok (readExact_append hmagic (List.append_assoc _ _ _)),
    Prog.bind_of_ok (lift_bailIf (by simp)),
    Prog.bind_of_ok (readExact_append (leBytes_length 4 _) rfl), hcount,
    Prog.bind_of_ok (lift_bailIf (by simp [hmax, hpos.ne'])), Prog.bind_of_ok hrun,
    Prog.bind_of_ok (show Prog.get id t = (ok t, t) from rfl),
    lift_bailIf (by simp [hinput])]

end Stages

/-- A package can be packed.  What is unpacked of its archive has the same inspection, up to
the directory that is inspected; and whatever bytes are unpacked, all files are created below
the destination, no two at one place, with no more content than a package may have. -/
theorem archive_round_trip {directory : Directory} (destination : List UInt8)
    (h : inspectPackage parseManifest sha256 (.directory directory.entries) = ok inspection) :
    (∃ archive t, packDirectory parseManifest sha256 (.directory directory.entries) =
        ok (inspection, archive) ∧
      unpackArchive destination archive = (ok (), t) ∧
      inspectPackage parseManifest sha256 (.directory t.entries) =
        ok { inspection with root := .directory t.entries }) ∧
    ∀ archive, Contained destination (unpackArchive destination archive).2 := by
  obtain ⟨entries, paths, hstages⟩ := inspectPackage_eq_ok.mp h
  obtain rfl : directory.entries = entries := by
    have hresolve := hstages.resolve_eq
    rwa [Node.resolve, Option.some.injEq, Node.directory.injEq] at hresolve
  obtain ⟨t, hunpack, hholds⟩ := hstages.unpackArchive_eq directory.wf destination
  refine ⟨⟨inspection.archive, t, hstages.packDirectory_eq, hunpack, ?_⟩,
    contained_unpackArchive destination⟩
  exact inspectPackage_eq_ok.mpr ⟨t.entries, paths, hstages.unpacked directory.wf hholds⟩

end RoundTrip

/-- The entries of the clock package. -/
def clockEntries (v : UInt8) : Entries :=
  .cons (Text.asBytes "plugin.wasm") (.file 1 (wasmHeader v))
    (.cons manifestFileName (.file 1 (Text.asBytes clockManifestText)) .nil)

lemma wf_clockEntries (v : UInt8) : (clockEntries v).WF := by
  refine ⟨by decide, trivial, fun other child hget => ?_, by decide, trivial,
    fun other child hget => ?_, trivial⟩
  · rw [Entries.get] at hget
    split_ifs at hget with hother
    · rw [hother]
      decide +kernel
    · cases hget
  · cases hget

def clockDirectory (v : UInt8) : Directory := ⟨clockEntries v, wf_clockEntries v⟩

theorem archive_round_trip_clock :
    ∃ inspection archive t, packDirectory parseClock clockSha256 (clockPackage 1) =
        ok (inspection, archive) ∧
      unpackArchive (Text.asBytes "/tmp/clock") archive = (ok (), t) ∧
      inspectPackage parseClock clockSha256 (.directory t.entries) =
        ok { inspection with root := .directory t.entries } := by
  obtain ⟨inspection, h, -⟩ := inspect_clockPackage 1 (.inl rfl)
  obtain ⟨⟨archive, t, hpack, hunpack, hinspect⟩, -⟩ :=
    @archive_round_trip parseClock clockSha256 inspection (clockDirectory 1)
      (Text.asBytes "/tmp/clock") h
  exact ⟨inspection, archive, t, hpack, hunpack, hinspect⟩

end TouchBar.Packages
