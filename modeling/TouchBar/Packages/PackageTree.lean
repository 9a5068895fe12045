import TouchBar.Lib.Codec
import TouchBar.Packages.PluginStore
import TouchBar.Rust.BytePath

/-!
# Package directories

What `inspect_package` sees of a directory: a tree of named nodes, in which a symbolic link
carries the node that it leads to.  The members of a package are the manifest, the artifacts
that it names, a few optional files, and everything in the asset directories; the digest of
the package is that of the members with their contents.  Parsing of the manifest and SHA-256
are parameters.
-/

namespace TouchBar.Packages

open TouchBar.Rust TouchBar.Rust.BytePath TouchBar.Lib TouchBar.Policy Outcome

def maxPackageFiles : ℕ := 1024
def maxPackageBytes : ℕ := 256 * 1024 * 1024
def maxPackageFileBytes : ℕ := 64 * 1024 * 1024
def maxManifestBytes : ℕ := 1024 * 1024

def manifestFileName : List UInt8 := Text.asBytes "touchbar-plugin.toml"

/-! ## Trees -/

mutual

/-- What a name of a directory stands for. -/
inductive Node where
  | file (links : ℕ) (content : List UInt8)
  | directory (entries : Entries)
  /-- A symbolic link, with the node that it names. -/
  | symlink (target : Node)
  /-- A symbolic link that leads nowhere. -/
  | dangling
  | special

/-- The entries of a directory, in the order of their names. -/
inductive Entries where
  | nil
  | cons (name : List UInt8) (node : Node) (rest : Entries)

end

/-- The entry with a name. -/
def Entries.get : Entries → List UInt8 → Option Node
  | .nil, _ => none
  | .cons name node rest, key => if key = name then some node else rest.get key

/-- The node after the symbolic links. -/
def Node.resolve : Node → Option Node
  | .symlink target => target.resolve
  | .dangling => none
  | .file links content => some (.file links content)
  | .directory entries => some (.directory entries)
  | .special => some .special

def Node.entry (node : Node) (name : List UInt8) : Option Node :=
  match node.resolve with
  | some (.directory entries) => entries.get name
  | _ => none

/-- The node at the end of a path: links on the way are followed, the last one is not. -/
def Node.lookup : List (List UInt8) → Node → Option Node
  | [], node => some node
  | name :: names, node => (node.entry name).bind (Node.lookup names)

mutual

/-- Entries have names and come in the order of these. -/
def Node.WF : Node → Prop
  | .file _ _ => True
  | .directory entries => entries.WF
  | .symlink target => target.WF
  | .dangling => True
  | .special => True

def Entries.WF : Entries → Prop
  | .nil => True
  | .cons name node rest => IsName name ∧ node.WF ∧
    (∀ other child, rest.get other = some child → nameKey name < nameKey other) ∧ rest.WF

end

/-- A directory of a file system. -/
structure Directory where
  entries : Entries
  wf : entries.WF

/-! ## Access by path -/

/-- `fs::symlink_metadata` on a relative path of normal components. -/
def Node.lstat (root : Node) (path : List UInt8) : Option Node :=
  match root.lookup (names path) with
  | none => none
  | some node =>
    if endsAsDirectory path then
      match node.resolve with
      | some (.directory entries) => some (.directory entries)
      | _ => none
    else some node

/-- `root.join(name).exists()`. -/
def Node.«exists» (root : Node) (name : List UInt8) : Bool :=
  ((root.lookup [name]).bind Node.resolve).isSome

/-- `open_regular_nofollow`, with the content that is read. -/
def Node.openRegular (root : Node) (path : List UInt8) : Outcome String (List UInt8) :=
  match root.lstat path with
  | some (.file links content) => do
    bailIf (links ≠ 1) "package file must be a single-link regular file"
    return content
  | some (.directory _) => err "package file must be a single-link regular file"
  | some .special => err "package file must be a single-link regular file"
  | some (.symlink _) => err "open package file"
  | some .dangling => err "open package file"
  | none => err "open package file"

def Node.readBoundedRegular (root : Node) (path : List UInt8) (maximum : ℕ) :
    Outcome String (List UInt8) := do
  let content ← root.openRegular path
  bailIf (maximum < content.length) "package file exceeds its size limit"
  return content

/-- `validate_relative_path`. -/
def validateMemberPath (path : List UInt8) : Outcome String Unit := do
  bailIf (path.isEmpty || maxArchivePathBytes < path.length || !(parts path).all Part.isNormal)
    "package path must be normalized and relative"
  bailIf (String.fromUTF8? ⟨path.toArray⟩).isNone "package paths must be UTF-8"

/-! ## Members -/

/-- `BTreeSet<PathBuf>`: paths are equal if their components are, and the first spelling
stays. -/
abbrev PathSet : Type := BTreeMap (List Part) (List UInt8)

def insertPath (paths : PathSet) (path : List UInt8) : PathSet :=
  if paths.containsKey (parts path) then paths else paths.insert (parts path) path

mutual

/-- The branches of `collect_directory_members` for an entry with this path. -/
def collectMember (path : List (List UInt8)) (node : Node) (output : PathSet) :
    Outcome String PathSet :=
  match node with
  | .symlink _ => err "package assets cannot contain symlinks"
  | .dangling => err "package assets cannot contain symlinks"
  | .directory entries => collectEntries path entries output
  | .file _ _ => ok (insertPath output (ofNames path))
  | .special => err "package assets must contain only regular files and directories"

/-- The loop of `collect_directory_members`. -/
def collectEntries (path : List (List UInt8)) (entries : Entries) (output : PathSet) :
    Outcome String PathSet :=
  match entries with
  | .nil => ok output
  | .cons name node rest =>
    match collectMember (path ++ [name]) node output with
    | ok collected =>
      if maxPackageFiles < collected.len then err "package contains too many files"
      else collectEntries path rest collected
    | err error => err error
    | .panic => .panic

end

/-- `collect_directory_members` on a directory of the package. -/
def collectDirectoryMembers (root : Node) (directory : List UInt8) (output : PathSet) :
    Outcome String PathSet :=
  match root.lookup [directory] with
  | some (.directory entries) => collectEntries [directory] entries output
  | _ => err "optional package asset root must be a directory"

def optionalFiles : List (List UInt8) :=
  ["README.md", "LICENSE", "LICENSE.md", "LICENSE.txt"].map Text.asBytes

def assetDirectories : List (List UInt8) := ["assets", "licenses", "screenshots"].map Text.asBytes

/-- The loop over the optional files. -/
def addOptionalFiles (root : Node) (paths : PathSet) (files : List (List UInt8)) : PathSet :=
  files.foldl (fun paths name => if root.exists name then insertPath paths name else paths) paths

/-- The loop over the asset directories. -/
def addAssetDirectories (root : Node) : List (List UInt8) → PathSet → Outcome String PathSet
  | [], paths => ok paths
  | directory :: directories, paths =>
    if root.exists directory then do
      let paths ← collectDirectoryMembers root directory paths
      addAssetDirectories root directories paths
    else addAssetDirectories root directories paths

/-- What a manifest says of its package. -/
structure PackageManifest where
  source : GithubSource
  version : Version
  runtime : InstalledRuntime
  /-- The entry points of a native plugin. -/
  entrypoints : List String
  artifactPaths : List String
  items : List DeclaredItem
  profiles : List DeclaredProfile
  requests : List CapabilityRequest

structure PackageMember where
  relative : List UInt8
  executable : Bool
  length : ℕ
deriving DecidableEq, Repr

/-- The loop over the paths. -/
def inspectMembers (root : Node) (entrypoints : List String) :
    List (List UInt8) → ℕ → Outcome String (List PackageMember)
  | [], _ => ok []
  | relative :: paths, total => do
    validateMemberPath relative
    match root.lstat relative with
    | none => err "inspect package member"
    | some (.file links content) => do
      bailIf (links ≠ 1) "package member must be a single-link regular file"
      bailIf (maxPackageFileBytes < content.length) "package member exceeds 64 MiB"
      bailIf (2 ^ 64 ≤ total + content.length) "package size overflow"
      bailIf (maxPackageBytes < total + content.length) "package exceeds 256 MiB"
      let members ← inspectMembers root entrypoints paths (total + content.length)
      return ⟨relative, entrypoints.any fun entrypoint =>
        parts (Text.asBytes entrypoint) = parts relative, content.length⟩ :: members
    | some _ => err "package member must be a single-link regular file"

/-! ## Digests -/

def digestMagic : List UInt8 := Text.asBytes "touchbar-package-v1" ++ [0]

def flagByte (executable : Bool) : UInt8 := if executable then 1 else 0

/-- What `digest_members` hashes of one member. -/
def digestedBytes (member : PackageMember) (content : List UInt8) : List UInt8 :=
  leBytes 8 member.relative.length ++ member.relative ++ [flagByte member.executable] ++
    leBytes 8 member.length ++ content

/-- What `digest_members` hashes of the members. -/
def digestedMembers (root : Node) : List PackageMember → Outcome String (List UInt8)
  | [] => ok []
  | member :: members => do
    let content ← root.openRegular member.relative
    let rest ← digestedMembers root members
    return digestedBytes member content ++ rest

section Inspect

variable (parseManifest : List UInt8 → Outcome String PackageManifest)
  (sha256 : List UInt8 → String)

/-- `format!("sha256:{:x}", digest.finalize())`. -/
def digestText (bytes : List UInt8) : String := "sha256:" ++ sha256 bytes

def digestMembers (root : Node) (members : List PackageMember) : Outcome String String := do
  let bytes ← digestedMembers root members
  return digestText sha256 (digestMagic ++ bytes)

/-- The digests of the artifacts. -/
def digestArtifacts (root : Node) : List String → BTreeMap String String →
    Outcome String (BTreeMap String String)
  | [], artifacts => ok artifacts
  | path :: paths, artifacts => do
    let content ← root.openRegular (Text.asBytes path)
    digestArtifacts root paths (artifacts.insert path (digestText sha256 content))

structure Inspection where
  root : Node
  manifest : PackageManifest
  packageDigest : String
  artifacts : BTreeMap String String
  members : List PackageMember

/-- The paths that the manifest names. -/
def manifestPaths (manifest : PackageManifest) : PathSet :=
  manifest.artifactPaths.foldl (fun paths artifact => insertPath paths (Text.asBytes artifact))
    (insertPath .empty manifestFileName)

def inspectPackage (package : Node) : Outcome String Inspection :=
  match package.resolve with
  | none => err "open package"
  | some (.directory entries) => do
    let root := Node.directory entries
    let source ← root.readBoundedRegular manifestFileName maxManifestBytes
    let manifest ← parseManifest source
    let paths := addOptionalFiles root (manifestPaths manifest) optionalFiles
    let paths ← addAssetDirectories root assetDirectories paths
    bailIf (maxPackageFiles < paths.len) "package contains too many files"
    let members ← inspectMembers root manifest.entrypoints paths.values 0
    let packageDigest ← digestMembers sha256 root members
    let artifacts ← digestArtifacts sha256 root manifest.artifactPaths .empty
    return ⟨root, manifest, packageDigest, artifacts, members⟩
  | some _ => err "package path must be a directory"

end Inspect

/-! ## What an inspection finds -/

/-- The content that is read of a regular file. -/
def Node.content (root : Node) (path : List UInt8) : List UInt8 :=
  match root.openRegular path with
  | ok content => content
  | _ => []

section Specs

variable {root : Node} {path : List UInt8} {content : List UInt8} {entrypoints : List String}

lemma openRegular_eq_ok : root.openRegular path = ok content ↔
    root.lstat path = some (.file 1 content) := by
  rw [Node.openRegular]
  cases hstat : root.lstat path with
  | none => simp
  | some node =>
    cases node with
    | file links found =>
      simp only [bailIf, pure_eq, Option.some.injEq, Node.file.injEq]
      by_cases hlinks : links = 1
      · simp [hlinks]
      · simp [hlinks]
    | directory entries => simp
    | symlink target => simp
    | dangling => simp
    | special => simp

lemma content_eq (h : root.lstat path = some (.file 1 content)) : root.content path = content := by
  rw [Node.content, openRegular_eq_ok.mpr h]

/-- A path that `validate_relative_path` accepts. -/
structure ValidPath (path : List UInt8) : Prop where
  nonempty : path ≠ []
  length_le : path.length ≤ maxArchivePathBytes
  normal : (parts path).all Part.isNormal = true
  utf8 : (String.fromUTF8? ⟨path.toArray⟩).isSome = true

lemma validateMemberPath_eq_ok : validateMemberPath path = ok () ↔ ValidPath path := by
  simp only [validateMemberPath, bind_eq_ok, bailIf_eq_ok, Bool.or_eq_false_iff,
    decide_eq_false_iff_not, Bool.not_eq_false', List.isEmpty_eq_false_iff, not_lt,
    Option.isNone_eq_false_iff]
  constructor
  · rintro ⟨-, ⟨⟨hne, hlength⟩, hnormal⟩, hutf8⟩
    exact ⟨hne, hlength, hnormal, hutf8⟩
  · rintro ⟨hne, hlength, hnormal, hutf8⟩
    exact ⟨(), ⟨⟨hne, hlength⟩, hnormal⟩, hutf8⟩

/-- The member that the loop makes of a path. -/
structure Inspected (root : Node) (entrypoints : List String) (path : List UInt8)
    (member : PackageMember) : Prop where
  relative : member.relative = path
  valid : ValidPath path
  regular : root.lstat path = some (.file 1 (root.content path))
  length_eq : (root.content path).length = member.length
  length_le : member.length ≤ maxPackageFileBytes
  executable : member.executable = entrypoints.any fun entrypoint =>
    parts (Text.asBytes entrypoint) = parts path

/-- The loop over the paths returns exactly the members of the paths, as long as they are small
enough together. -/
lemma inspectMembers_eq_ok {paths : List (List UInt8)} :
    ∀ {total : ℕ} {members : List PackageMember},
      inspectMembers root entrypoints paths total = ok members ↔
        List.Forall₂ (Inspected root entrypoints) paths members ∧
          (members ≠ [] → total + (members.map PackageMember.length).sum ≤ maxPackageBytes) := by
  induction paths with
  | nil =>
    intro total members
    rw [inspectMembers, ok.injEq, List.forall₂_nil_left_iff]
    constructor
    · rintro rfl
      exact ⟨rfl, fun h => absurd rfl h⟩
    · rintro ⟨rfl, -⟩
      rfl
  | cons path paths ih =>
    intro total members
    have hmax : maxPackageBytes < 2 ^ 64 := by decide
    rw [inspectMembers, bind_eq_ok]
    constructor
    · rintro ⟨⟨⟩, hvalid, h⟩
      split at h
      · cases h
      · rename_i links content hstat
        simp only [bind_eq_ok, bailIf_eq_ok, pure_eq, ok.injEq, decide_eq_false_iff_not,
          not_not, not_lt, not_le] at h
        obtain ⟨_, rfl, _, hfile, _, -, _, htotal, rest, hrest, rfl⟩ := h
        obtain ⟨hall, hsum⟩ := ih.mp hrest
        have hcontent := content_eq hstat
        refine ⟨.cons ⟨rfl, validateMemberPath_eq_ok.mp hvalid, ?_, ?_, hfile, rfl⟩ hall,
          fun _ => ?_⟩
        · rw [hcontent]
          exact hstat
        · rw [hcontent]
        · rw [List.map_cons, List.sum_cons]
          rcases rest with _ | ⟨next, rest⟩
          · exact htotal
          · have hle := hsum (by simp)
            show total + (content.length + _) ≤ _
            omega
      · cases h
    · rintro ⟨hall, hsum⟩
      cases hall with
      | @cons _ member _ rest hmember hrest =>
        have hle := hsum (by simp)
        rw [List.map_cons, List.sum_cons] at hle
        refine ⟨(), validateMemberPath_eq_ok.mpr hmember.valid, ?_⟩
        rw [hmember.regular]
        have hlength := hmember.length_eq
        have hfile := hmember.length_le
        have htail : inspectMembers root entrypoints paths
            (total + (root.content path).length) = ok rest :=
          ih.mpr ⟨hrest, fun _ => by omega⟩
        have hmember_eq : member = ⟨path, entrypoints.any fun entrypoint =>
            parts (Text.asBytes entrypoint) = parts path, (root.content path).length⟩ := by
          cases member
          simp only [PackageMember.mk.injEq]
          exact ⟨hmember.relative, hmember.executable, hlength.symm⟩
        simp only [htail, ok_bind, pure_eq, bind_eq_ok, bailIf_eq_ok, decide_eq_false_iff_not,
          not_not, not_lt, not_le, ok.injEq]
        refine ⟨(), trivial, (), by omega, (), by omega, (), by omega, ?_⟩
        rw [hmember_eq]

/-- What is hashed of the members is what is hashed of each. -/
lemma digestedMembers_eq_ok {members : List PackageMember} {bytes : List UInt8} :
    digestedMembers root members = ok bytes ↔
      (∀ member ∈ members,
        root.lstat member.relative = some (.file 1 (root.content member.relative))) ∧
      bytes = members.flatMap fun member => digestedBytes member (root.content member.relative) := by
  induction members generalizing bytes with
  | nil => simp [digestedMembers, eq_comm]
  | cons member members ih =>
    simp only [digestedMembers, bind_eq_ok, pure_eq, ok.injEq, ih, openRegular_eq_ok]
    constructor
    · rintro ⟨content, hcontent, rest, ⟨hall, rfl⟩, rfl⟩
      have heq := content_eq hcontent
      refine ⟨fun other hother => ?_, by rw [List.flatMap_cons, heq]⟩
      rcases List.mem_cons.mp hother with rfl | hother
      · rw [heq]
        exact hcontent
      · exact hall other hother
    · rintro ⟨hall, rfl⟩
      exact ⟨_, hall member List.mem_cons_self, _,
        ⟨fun other hother => hall other (List.mem_cons_of_mem _ hother), rfl⟩, rfl⟩

/-- The digests of the artifacts are those of their contents. -/
lemma digestArtifacts_eq_ok {sha256 : List UInt8 → String} {artifactPaths : List String} :
    ∀ {artifacts result : BTreeMap String String},
      digestArtifacts sha256 root artifactPaths artifacts = ok result ↔
        (∀ artifact ∈ artifactPaths, root.lstat (Text.asBytes artifact) =
          some (.file 1 (root.content (Text.asBytes artifact)))) ∧
        result = artifactPaths.foldl (fun map artifact => map.insert artifact
          (digestText sha256 (root.content (Text.asBytes artifact)))) artifacts := by
  induction artifactPaths with
  | nil => simp [digestArtifacts, eq_comm]
  | cons path paths ih =>
    intro artifacts result
    simp only [digestArtifacts, bind_eq_ok, openRegular_eq_ok, ih, List.foldl_cons,
      List.forall_mem_cons]
    constructor
    · rintro ⟨content, hcontent, hall, rfl⟩
      rw [content_eq hcontent]
      exact ⟨⟨hcontent, hall⟩, rfl⟩
    · rintro ⟨⟨hpath, hall⟩, rfl⟩
      exact ⟨_, hpath, hall, rfl⟩

end Specs

end TouchBar.Packages
