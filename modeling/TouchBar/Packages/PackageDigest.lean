import TouchBar.Lib.Lists
import TouchBar.Packages.PackageTree

/-!
# The digest of a package

The digest is the hash of a magic string and of one record for each member: its path and its
content, each after its length, and the flag of executables.  The lengths make the records
readable one after the other, so that two packages with the same hashed bytes have the same
members.
-/

namespace TouchBar.Packages

open TouchBar.Rust TouchBar.Rust.BytePath TouchBar.Lib Outcome

/-! ## Records -/

section Records

variable {width : ℕ} {p q rest rest' : List UInt8}

/-- Bytes after their length can be told from what follows them. -/
lemma sized_append_inj (hp : p.length < 256 ^ width) (hq : q.length < 256 ^ width)
    (h : leBytes width p.length ++ (p ++ rest) = leBytes width q.length ++ (q ++ rest')) :
    p = q ∧ rest = rest' := by
  obtain ⟨hlength, htail⟩ := List.append_inj h (by rw [leBytes_length, leBytes_length])
  have heq : p.length = q.length := by
    rw [← leValue_leBytes hp, ← leValue_leBytes hq, hlength]
  exact List.append_inj htail heq

lemma flagByte_injective : Function.Injective flagByte := by
  intro a b h
  cases a <;> cases b <;> first | rfl | cases h

/-- A member as an inspection finds it, with its content. -/
structure Fits (member : PackageMember) (content : List UInt8) : Prop where
  path_le : member.relative.length ≤ maxArchivePathBytes
  length_eq : content.length = member.length
  length_le : member.length ≤ maxPackageFileBytes

lemma digestedBytes_append_inj {member other : PackageMember} {content content' : List UInt8}
    (hm : Fits member content) (ho : Fits other content')
    (h : digestedBytes member content ++ rest = digestedBytes other content' ++ rest') :
    (member, content) = (other, content') ∧ rest = rest' := by
  have hpath : maxArchivePathBytes < 256 ^ 8 := by decide
  have hfile : maxPackageFileBytes < 256 ^ 8 := by decide
  have hm₁ := hm.path_le
  have hm₂ := hm.length_le
  have ho₁ := ho.path_le
  have ho₂ := ho.length_le
  simp only [digestedBytes, List.append_assoc, List.cons_append, List.nil_append] at h
  obtain ⟨hrelative, h⟩ := sized_append_inj (by omega) (by omega) h
  obtain ⟨hflag, h⟩ := List.cons_eq_cons.mp h
  rw [← hm.length_eq, ← ho.length_eq] at h
  obtain ⟨hcontent, hrest⟩ := sized_append_inj (by rw [hm.length_eq]; omega)
    (by rw [ho.length_eq]; omega) h
  have hlength : member.length = other.length := by rw [← hm.length_eq, ← ho.length_eq, hcontent]
  refine ⟨?_, hrest⟩
  cases member
  cases other
  simp only [Prod.mk.injEq, PackageMember.mk.injEq]
  exact ⟨⟨hrelative, flagByte_injective hflag, hlength⟩, hcontent⟩

lemma digestedBytes_ne_nil (member : PackageMember) (content : List UInt8) :
    digestedBytes member content ≠ [] := by
  intro h
  have hlength := congrArg List.length h
  simp [digestedBytes] at hlength

/-- The records of a list of members determine the members and their contents. -/
theorem digested_injective {members : List (PackageMember × List UInt8)} :
    ∀ {others : List (PackageMember × List UInt8)}, (∀ m ∈ members, Fits m.1 m.2) →
      (∀ m ∈ others, Fits m.1 m.2) →
      (members.flatMap fun m => digestedBytes m.1 m.2) =
        (others.flatMap fun m => digestedBytes m.1 m.2) → members = others := by
  induction members with
  | nil =>
    intro others _ _ h
    cases others with
    | nil => rfl
    | cons other others =>
      rw [List.flatMap_nil, List.flatMap_cons, eq_comm, List.append_eq_nil_iff] at h
      exact absurd h.1 (digestedBytes_ne_nil _ _)
  | cons member members ih =>
    intro others hmembers hothers h
    cases others with
    | nil =>
      rw [List.flatMap_nil, List.flatMap_cons, List.append_eq_nil_iff] at h
      exact absurd h.1 (digestedBytes_ne_nil _ _)
    | cons other others =>
      rw [List.flatMap_cons, List.flatMap_cons] at h
      obtain ⟨hhead, htail⟩ := digestedBytes_append_inj (hmembers _ List.mem_cons_self)
        (hothers _ List.mem_cons_self) h
      rw [ih (fun m hm => hmembers m (List.mem_cons_of_mem _ hm))
        (fun m hm => hothers m (List.mem_cons_of_mem _ hm)) htail]
      exact congrArg (· :: others) hhead

end Records

/-! ## Inspected packages -/

section Inspected

variable {parseManifest : List UInt8 → Outcome String PackageManifest}
  {sha256 : List UInt8 → String} {package : Node} {inspection : Inspection}

/-- The members with their contents. -/
def Inspection.contents (inspection : Inspection) : List (PackageMember × List UInt8) :=
  inspection.members.map fun member => (member, inspection.root.content member.relative)

/-- What `digest_members` has hashed. -/
def Inspection.digested (inspection : Inspection) : List UInt8 :=
  digestMagic ++ inspection.contents.flatMap fun m => digestedBytes m.1 m.2

/-- The stages of a successful inspection. -/
structure Stages (parseManifest : List UInt8 → Outcome String PackageManifest)
    (sha256 : List UInt8 → String) (package : Node) (inspection : Inspection)
    (entries : Entries) (paths : PathSet) : Prop where
  resolve_eq : package.resolve = some (.directory entries)
  root_eq : inspection.root = .directory entries
  manifest_stat : inspection.root.lstat manifestFileName =
    some (.file 1 (inspection.root.content manifestFileName))
  manifest_le : (inspection.root.content manifestFileName).length ≤ maxManifestBytes
  manifest_eq : parseManifest (inspection.root.content manifestFileName) = ok inspection.manifest
  paths_eq : addAssetDirectories inspection.root assetDirectories
    (addOptionalFiles inspection.root (manifestPaths inspection.manifest) optionalFiles) = ok paths
  count_le : paths.len ≤ maxPackageFiles
  members_forall₂ : List.Forall₂ (Inspected inspection.root inspection.manifest.entrypoints)
    paths.values inspection.members
  total_le : (inspection.members.map PackageMember.length).sum ≤ maxPackageBytes
  digest_eq : inspection.packageDigest = digestText sha256 inspection.digested
  artifacts_stat : ∀ artifact ∈ inspection.manifest.artifactPaths,
    inspection.root.lstat (Text.asBytes artifact) =
      some (.file 1 (inspection.root.content (Text.asBytes artifact)))
  artifacts_eq : inspection.artifacts = inspection.manifest.artifactPaths.foldl
    (fun map artifact => map.insert artifact
      (digestText sha256 (inspection.root.content (Text.asBytes artifact)))) .empty

lemma Inspection.digested_eq (inspection : Inspection) :
    inspection.digested = digestMagic ++ inspection.members.flatMap fun member =>
      digestedBytes member (inspection.root.content member.relative) := by
  rw [Inspection.digested, Inspection.contents, List.flatMap_map]

/-- An inspection succeeds exactly if all of its stages do. -/
lemma inspectPackage_eq_ok : inspectPackage parseManifest sha256 package = ok inspection ↔
    ∃ entries paths, Stages parseManifest sha256 package inspection entries paths := by
  have hzero : ∀ n, 0 + n = n := Nat.zero_add
  constructor
  · intro h
    rw [inspectPackage] at h
    split at h
    · cases h
    · rename_i entries hresolve
      simp only [Node.readBoundedRegular, bind_eq_ok, openRegular_eq_ok, bailIf_eq_ok, pure_eq,
        ok.injEq, decide_eq_false_iff_not, not_lt, inspectMembers_eq_ok, digestMembers,
        digestedMembers_eq_ok, digestArtifacts_eq_ok, hzero] at h
      obtain ⟨_, ⟨content, hstat, _, hle, rfl⟩, manifest, hmanifest, paths, hpaths, _, hcount,
        members, ⟨hmembers, htotal⟩, _, ⟨_, ⟨-, rfl⟩, rfl⟩, artifacts, ⟨hartifacts, rfl⟩, rfl⟩ := h
      have hcontent := content_eq hstat
      refine ⟨entries, paths, hresolve, rfl, ?_, ?_, ?_, hpaths, hcount, hmembers, ?_, ?_,
        hartifacts, rfl⟩
      · exact hcontent.symm ▸ hstat
      · exact hcontent.symm ▸ hle
      · exact hcontent.symm ▸ hmanifest
      · rcases members with _ | ⟨member, members⟩
        · exact Nat.zero_le _
        · exact htotal (by simp)
      · rw [Inspection.digested_eq]
    · cases h
  · rintro ⟨entries, paths, h⟩
    have hroot := h.root_eq
    rw [inspectPackage, h.resolve_eq]
    simp only [Node.readBoundedRegular, bind_eq_ok, openRegular_eq_ok, bailIf_eq_ok, pure_eq,
      ok.injEq, decide_eq_false_iff_not, not_lt, inspectMembers_eq_ok, digestMembers,
      digestedMembers_eq_ok, digestArtifacts_eq_ok, hzero]
    obtain ⟨root, manifest, packageDigest, artifacts, members⟩ := inspection
    obtain rfl : root = .directory entries := hroot
    refine ⟨_, ⟨_, h.manifest_stat, (), h.manifest_le, rfl⟩, manifest, h.manifest_eq, paths,
      h.paths_eq, (), h.count_le, members, ⟨h.members_forall₂, fun _ => h.total_le⟩, _,
      ⟨_, ⟨fun member hmember => ?_, rfl⟩, rfl⟩, _, ⟨h.artifacts_stat, rfl⟩, ?_⟩
    · obtain ⟨path, -, hinspected⟩ := forall₂_exists_left h.members_forall₂ hmember
      rw [hinspected.relative]
      exact hinspected.regular
    · have hdigest := h.digest_eq
      have hartifacts := h.artifacts_eq
      rw [Inspection.digested_eq] at hdigest
      simp only [Inspection.mk.injEq, true_and, and_true]
      exact ⟨hdigest.symm, hartifacts.symm⟩

lemma Stages.fits {entries : Entries} {paths : PathSet}
    (h : Stages parseManifest sha256 package inspection entries paths) :
    ∀ m ∈ inspection.contents, Fits m.1 m.2 := by
  intro m hm
  obtain ⟨member, hmember, rfl⟩ := List.mem_map.mp hm
  obtain ⟨path, -, hinspected⟩ := forall₂_exists_left h.members_forall₂ hmember
  obtain rfl := hinspected.relative
  exact ⟨hinspected.valid.length_le, hinspected.length_eq, hinspected.length_le⟩

end Inspected

/-! ## Two packages -/

def clockManifestText : String :=
  "manifest_version = 1\n\n[plugin]\nname = \"Clock\"\nversion = \"1.0.0\"\n" ++
    "description = \"Shows the time\"\nlicense = \"MIT\"\nsource = \"github:example/clock\"\n" ++
    "api = \"^1.0\"\n\n[runtime]\nkind = \"component\"\nentrypoint = \"plugin.wasm\"\n" ++
    "world = \"touchbar:plugin/plugin@1.0.0\"\n\n[[items]]\nid = \"clock\"\nlabel = \"Clock\"\n"

def clockManifest : PackageManifest where
  source := ⟨"example", "clock"⟩
  version := ⟨1, 0, 0, "", ""⟩
  runtime := .component
  entrypoints := []
  artifactPaths := ["plugin.wasm"]
  items := [⟨"clock", "Clock", 160⟩]
  profiles := []
  requests := []

/-- The parser on the manifest of the clock. -/
def parseClock (source : List UInt8) : Outcome String PackageManifest :=
  if source = Text.asBytes clockManifestText then ok clockManifest
  else err "could not parse touchbar-plugin.toml"

/-- A component of the binary format version `v`. -/
def wasmHeader (v : UInt8) : List UInt8 := [0, 97, 115, 109, v, 0, 0, 0]

def clockPackage (v : UInt8) : Node :=
  .directory (.cons (Text.asBytes "plugin.wasm") (.file 1 (wasmHeader v))
    (.cons manifestFileName (.file 1 (Text.asBytes clockManifestText)) .nil))

def clockMembers (v : UInt8) : List (PackageMember × List UInt8) :=
  [(⟨Text.asBytes "plugin.wasm", false, 8⟩, wasmHeader v),
    (⟨manifestFileName, false, 292⟩, Text.asBytes clockManifestText)]

def clockDigested (v : UInt8) : List UInt8 :=
  digestMagic ++ (clockMembers v).flatMap fun m => digestedBytes m.1 m.2

/-- SHA-256 on what is hashed of the two packages. -/
def clockSha256 (bytes : List UInt8) : String :=
  if bytes = wasmHeader 1 then "93a44bbb96c751218e4c00d479e4c14358122a389acca16205b1e4d0dc5f9476"
  else if bytes = wasmHeader 2 then
    "593ab0b4d166fc4aa2d6956ea38019e2c575134f8139b0a18235f7abd595103f"
  else if bytes = clockDigested 1 then
    "70629ce663eba5bc579d122eaad73c2ddfd1a3647b3e0faf5aba4d58a0f9998e"
  else if bytes = clockDigested 2 then
    "eeffc8dfdbbabbe4044c036d40511d870290acc7ae8c7e7da0c46965945db84b"
  else ""

lemma inspect_clockPackage (v : UInt8) (hv : v = 1 ∨ v = 2) :
    ∃ inspection, inspectPackage parseClock clockSha256 (clockPackage v) = ok inspection ∧
      inspection.contents = clockMembers v := by
  have hcontents : Inspection.contents <$> inspectPackage parseClock clockSha256 (clockPackage v) =
      ok (clockMembers v) := by
    rcases hv with rfl | rfl <;> decide +kernel
  rw [map_eq_ok] at hcontents
  exact hcontents

end TouchBar.Packages
