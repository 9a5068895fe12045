import TouchBar.Policy.Update
import TouchBar.Rust.Path

/-!
# The plugin store

The lock file lists the installed plugins and the releases that are retained for a rollback.
`open` reads the file into memory, every mutating call edits the copy in memory, and `save`
writes the whole copy back.  A call is modelled by the `Change` that it makes to the copy:
it puts the entry of one source, with a release or without, or it drops that source.
-/

namespace TouchBar.Packages

open TouchBar.Rust TouchBar.Policy Outcome

def storeSchemaVersion : ℕ := 1
def maxLockBytes : ℕ := 1024 * 1024
def maxArchivePathBytes : ℕ := 4096
def maxReleaseHistory : ℕ := 1024
def maxReleasesPerSource : ℕ := 32

/-- `MAX_TOUCHBAR_WIDTH` of the package crate. -/
def maxItemWidth : ℕ := 8192

/-! ## The lock file -/

structure InstalledItem where
  id : String
  label : String
  width : ℕ
  enabled : Bool
deriving DecidableEq, Repr

structure InstalledProfile where
  id : String
  label : String
  enabled : Bool
deriving DecidableEq, Repr

inductive InstalledRuntime where
  | component
  | native
deriving DecidableEq, Repr

structure Version where
  major : ℕ
  minor : ℕ
  patch : ℕ
  pre : String
  build : String
deriving DecidableEq, Repr

/-- `Display`. -/
def Version.display (version : Version) : String :=
  toString version.major ++ "." ++ toString version.minor ++ "." ++ toString version.patch ++
    (if Text.isEmpty version.pre then "" else "-" ++ version.pre) ++
    (if Text.isEmpty version.build then "" else "+" ++ version.build)

inductive InstalledOrigin where
  | localDevelopment
  | githubRelease (releaseId : ℕ) (tag : String) (assetId : ℕ) (assetName assetDigest : String)
      (immutable attested : Bool)
deriving DecidableEq, Repr

def InstalledOrigin.isRelease : InstalledOrigin → Bool
  | localDevelopment => false
  | githubRelease .. => true

structure InstalledPlugin where
  source : GithubSource
  version : Version
  packageDigest : String
  artifacts : BTreeMap String String
  enabled : Bool
  runtime : InstalledRuntime
  origin : InstalledOrigin
  items : List InstalledItem
  profiles : List InstalledProfile
deriving DecidableEq

structure ReleaseSnapshot where
  source : GithubSource
  version : Version
  packageDigest : String
  origin : InstalledOrigin
deriving DecidableEq

structure StoreDocument where
  schemaVersion : ℕ
  plugins : List InstalledPlugin
  releaseHistory : List ReleaseSnapshot
deriving DecidableEq

/-- The TOML library: what it encodes, it decodes to the same document. -/
structure LockToml where
  fromStr : String → Except String StoreDocument
  toStringPretty : StoreDocument → Except String String
  lossless : ∀ document text, toStringPretty document = .ok text → fromStr text = .ok document

/-! ## Checks of the entries -/

/-- `if condition { bail!(message) }`. -/
def bailIf (condition : Bool) (message : String) : Outcome String Unit :=
  if condition then err message else ok ()

/-- `StorePaths::package`, without the path that it makes. -/
def packagePath (digest : String) : Outcome String Unit :=
  bailIf
    (!(Text.stripPrefix digest "sha256:").any fun value =>
      Text.len value = 64 && Text.all value fun c => c.isDigit || ('a' ≤ c && c ≤ 'f'))
    "invalid installed package digest"

def validateRelativePath (path : String) : Outcome String Unit :=
  bailIf
    (Text.isEmpty path || maxArchivePathBytes < Text.len path ||
      !(Path.components path).all Path.Component.isNormal)
    "package path must be normalized and relative"

def validateOrigin (origin : InstalledOrigin) (version : Version) : Outcome String Unit :=
  match origin with
  | .localDevelopment => ok ()
  | .githubRelease releaseId tag assetId assetName assetDigest _ _ => do
    bailIf (releaseId = 0 || assetId = 0) "GitHub release and asset IDs must be nonzero"
    bailIf (tag ≠ "v" ++ version.display) "GitHub release tag does not match the package version"
    bailIf (!Text.isEmpty version.pre || !Text.isEmpty version.build)
      "stable GitHub releases require a plain semantic version"
    bailIf (Text.isEmpty assetName || 255 < Text.len assetName ||
        Text.any assetName (fun c => c.toNat < 0x20 || c.toNat = 0x7f) ||
        !(Path.components assetName).all Path.Component.isNormal)
      "GitHub release asset name is invalid"
    packagePath assetDigest

/-- The loop of `validate_installed` over the items. -/
def validateInstalledItems : List InstalledItem → BTreeSet String → Outcome String Unit
  | [], _ => ok ()
  | item :: items, ids => do
    bailIf (ids.contains item.id || !(1 ≤ item.width && item.width ≤ maxItemWidth))
      "installed plugin item state is invalid"
    validateInstalledItems items (ids.insert item.id)

/-- The loop of `validate_installed` over the profiles. -/
def validateInstalledProfiles : List InstalledProfile → BTreeSet String → Outcome String Unit
  | [], _ => ok ()
  | profile :: profiles, ids => do
    bailIf (Text.isEmpty profile.id || Text.trimIsEmpty profile.label || ids.contains profile.id)
      "installed plugin profile state is invalid"
    validateInstalledProfiles profiles (ids.insert profile.id)

/-- The loop of `validate_installed` over the artifacts. -/
def validateArtifacts : List (String × String) → Outcome String Unit
  | [] => ok ()
  | artifact :: artifacts => do
    validateRelativePath artifact.1
    packagePath artifact.2
    validateArtifacts artifacts

def validateInstalled (plugin : InstalledPlugin) : Outcome String Unit := do
  packagePath plugin.packageDigest
  validateOrigin plugin.origin plugin.version
  bailIf plugin.items.isEmpty "installed plugin has no items"
  validateInstalledItems plugin.items .empty
  validateInstalledProfiles plugin.profiles .empty
  bailIf plugin.artifacts.entries.isEmpty "installed plugin has no artifact digests"
  validateArtifacts plugin.artifacts.entries

def validateReleaseSnapshot (snapshot : ReleaseSnapshot) : Outcome String Unit := do
  packagePath snapshot.packageDigest
  bailIf (!snapshot.origin.isRelease) "release history contains non-release provenance"
  validateOrigin snapshot.origin snapshot.version

/-! ## Opening and saving -/

/-- Plugins under their own sources. -/
structure PluginStore where
  plugins : BTreeMap GithubSource InstalledPlugin
  keyed : ∀ source plugin, plugins.get source = some plugin → plugin.source = source
  releaseHistory : List ReleaseSnapshot

namespace PluginStore

/-- The map with one entry put. -/
def insert (store : PluginStore) (plugin : InstalledPlugin) : PluginStore where
  plugins := store.plugins.insert plugin.source plugin
  keyed := by
    intro source other h
    rw [BTreeMap.get_insert] at h
    split_ifs at h with hsource
    · rw [← Option.some.inj h, hsource]
    · exact store.keyed source other h
  releaseHistory := store.releaseHistory

/-- The map with one entry removed. -/
def erase (store : PluginStore) (source : GithubSource) : PluginStore where
  plugins := store.plugins.remove source
  keyed := by
    intro other plugin h
    rw [BTreeMap.get_remove] at h
    split_ifs at h
    exact store.keyed other plugin h
  releaseHistory := store.releaseHistory

end PluginStore

/-- `read_document` on the content of the file, if there is one. -/
def readDocument (toml : LockToml) : Option (List UInt8) → Outcome String StoreDocument
  | none => ok ⟨storeSchemaVersion, [], []⟩
  | some bytes => do
    bailIf (maxLockBytes < bytes.length) "plugin lock exceeds its size limit"
    match String.fromUTF8? ⟨bytes.toArray⟩ with
    | none => err "stream did not contain valid UTF-8"
    | some source =>
      match toml.fromStr source with
      | .error message => err message
      | .ok document => do
        bailIf (document.schemaVersion ≠ storeSchemaVersion) "unsupported plugin lock schema"
        return document

/-- The loop of `open` over the plugins. -/
def insertPlugins (store : PluginStore) : List InstalledPlugin → Outcome String PluginStore
  | [] => ok store
  | plugin :: plugins => do
    validateInstalled plugin
    bailIf (store.plugins.containsKey plugin.source) "plugin lock contains a duplicate source"
    insertPlugins (store.insert plugin) plugins

/-- The loop of `open` over the releases. -/
def validateReleases : List ReleaseSnapshot → Outcome String Unit
  | [] => ok ()
  | snapshot :: snapshots => do
    validateReleaseSnapshot snapshot
    validateReleases snapshots

namespace PluginStore

/-- `open` on the content of the lock file. -/
def «open» (toml : LockToml) (content : Option (List UInt8)) : Outcome String PluginStore := do
  let document ← readDocument toml content
  bailIf (maxReleaseHistory < document.releaseHistory.length)
    "plugin release history exceeds its entry limit"
  let store ← insertPlugins ⟨.empty, by simp, document.releaseHistory⟩ document.plugins
  validateReleases document.releaseHistory
  return store

/-- The document that `save` encodes. -/
def document (store : PluginStore) : StoreDocument :=
  ⟨storeSchemaVersion, store.plugins.values, store.releaseHistory⟩

/-- The bytes that `save` writes. -/
def encode (toml : LockToml) (store : PluginStore) : Outcome String (List UInt8) :=
  match toml.toStringPretty store.document with
  | .error message => err message
  | .ok encoded => do
    bailIf (maxLockBytes < Text.len encoded) "plugin lock exceeds its size limit"
    return Text.asBytes encoded

end PluginStore

/-! ## Changes of the copy in memory -/

/-- `while matching.len() > …`: the oldest releases of the source go first. -/
def dropOldest (source : GithubSource) : ℕ → List ReleaseSnapshot → List ReleaseSnapshot
  | 0, history => history
  | excess + 1, history =>
    dropOldest source excess (history.eraseP fun candidate => candidate.source = source)

/-- `record_release` on the history. -/
def recordRelease (history : List ReleaseSnapshot) (snapshot : ReleaseSnapshot) :
    List ReleaseSnapshot :=
  if history.getLast? = some snapshot then history
  else
    let history := history ++ [snapshot]
    let matching := history.countP fun candidate => candidate.source = snapshot.source
    let history := dropOldest snapshot.source (matching - maxReleasesPerSource) history
    history.drop (history.length - maxReleaseHistory)

/-- The release that `install_directory_as` records of an entry. -/
def InstalledPlugin.snapshot (plugin : InstalledPlugin) : ReleaseSnapshot :=
  ⟨plugin.source, plugin.version, plugin.packageDigest, plugin.origin⟩

/-- What a call does to the copy in memory. -/
inductive Change where
  /-- The entry of a plugin is inserted or edited, and its release recorded. -/
  | put (plugin : InstalledPlugin) (recorded : Bool)
  /-- A source is removed with its releases. -/
  | drop (source : GithubSource)
deriving DecidableEq

def Change.source : Change → GithubSource
  | put plugin _ => plugin.source
  | drop source => source

def PluginStore.apply (store : PluginStore) : Change → PluginStore
  | .put plugin recorded =>
    { store.insert plugin with
      releaseHistory :=
        if recorded then recordRelease store.releaseHistory plugin.snapshot
        else store.releaseHistory }
  | .drop source =>
    { store.erase source with
      releaseHistory := store.releaseHistory.filter fun snapshot => snapshot.source ≠ source }

/-! ## The mutating calls -/

/-- An item as the manifest of a package declares it. -/
structure DeclaredItem where
  id : String
  label : String
  defaultWidth : ℕ

/-- A profile as the manifest of a package declares it. -/
structure DeclaredProfile where
  id : String
  label : String
  enabledByDefault : Bool

/-- What `inspect_package` returns of a package. -/
structure PackageInspection where
  source : GithubSource
  version : Version
  runtime : InstalledRuntime
  items : List DeclaredItem
  profiles : List DeclaredProfile
  requests : List CapabilityRequest
  packageDigest : String
  artifacts : BTreeMap String String

/-- The package directories, while a call runs. -/
structure PackageFiles where
  /-- The outcome of copying a package to the directory of its digest, or of checking the
  directory that exists. -/
  place : String → Outcome String Unit
  /-- `inspect_package` on the directory of a digest. -/
  inspect : String → Outcome String PackageInspection
  isDirectory : String → Bool

structure ReleaseInstall where
  installed : InstalledPlugin
  permissionChanges : List PermissionChange
  disabledForConsent : Bool

/-- What a call returns. -/
inductive Answer where
  | done
  | installed (install : ReleaseInstall)
  | removed (removed : Bool)

/-- The change that a call saves, if it makes one, and what it returns. -/
structure Edit where
  change : Option Change
  answer : Answer

def sourceText (source : GithubSource) : String :=
  "github:" ++ source.owner ++ "/" ++ source.repository

/-- The entry of `install_directory_as`, which keeps what the user chose before. -/
def installedPlugin (inspection : PackageInspection) (previous : Option InstalledPlugin)
    (origin : InstalledOrigin) (disabledForConsent : Bool) : InstalledPlugin :=
  let previousItems : BTreeMap String (Bool × ℕ) := previous.elim .empty fun plugin =>
    .ofList (plugin.items.map fun item => (item.id, item.enabled, item.width))
  let previousProfiles : BTreeMap String Bool := previous.elim .empty fun plugin =>
    .ofList (plugin.profiles.map fun profile => (profile.id, profile.enabled))
  { source := inspection.source
    version := inspection.version
    packageDigest := inspection.packageDigest
    artifacts := inspection.artifacts
    enabled := previous.any InstalledPlugin.enabled && !disabledForConsent
    runtime := inspection.runtime
    origin := origin
    items := inspection.items.map fun item =>
      let kept := (previousItems.get item.id).getD (true, item.defaultWidth)
      ⟨item.id, item.label, kept.2, kept.1⟩
    profiles := inspection.profiles.map fun profile =>
      ⟨profile.id, profile.label, (previousProfiles.get profile.id).getD
        profile.enabledByDefault⟩ }

section Calls

variable (files : PackageFiles) (store : PluginStore)

/-- The requests of the version that is installed. -/
def previousRequests : Option InstalledPlugin → Outcome String (List CapabilityRequest)
  | none => ok []
  | some plugin => do
    packagePath plugin.packageDigest
    let package ← files.inspect plugin.packageDigest
    return package.requests

def installDirectoryAs (inspected : Outcome String PackageInspection) (origin : InstalledOrigin)
    (recordRelease enforceRemoteUpdatePolicy : Bool) : Outcome String Edit := do
  let inspection ← inspected
  validateOrigin origin inspection.version
  packagePath inspection.packageDigest
  files.place inspection.packageDigest
  let previous := store.plugins.get inspection.source
  let requests ← previousRequests files previous
  let permissionChanges ← check (diffPermissions requests inspection.requests)
  let packageChanged := previous.any fun plugin =>
    plugin.packageDigest ≠ inspection.packageDigest || plugin.version ≠ inspection.version
  let disabledForConsent := enforceRemoteUpdatePolicy && previous.any InstalledPlugin.enabled &&
    (permissionChanges.any PermissionChange.requiresConsent ||
      (inspection.runtime = .native && packageChanged))
  let plugin := installedPlugin inspection previous origin disabledForConsent
  return ⟨some (.put plugin recordRelease),
    .installed ⟨plugin, permissionChanges, disabledForConsent⟩⟩

/-- `install_directory`; `install_archive` unpacks the archive and calls it. -/
def installDirectory (inspected : Outcome String PackageInspection) : Outcome String Edit :=
  installDirectoryAs files store inspected .localDevelopment false false

def installReleaseArchive (inspected : Outcome String PackageInspection)
    (expectedSource : GithubSource) (expectedVersion : Version) (origin : InstalledOrigin) :
    Outcome String Edit := do
  bailIf (!origin.isRelease) "a release install requires GitHub release provenance"
  let inspection ← inspected
  bailIf (inspection.source ≠ expectedSource || inspection.version ≠ expectedVersion)
    "release package identity does not match the requested source and version"
  installDirectoryAs files store inspected origin true true

/-- `plugins.get_mut(source)`. -/
def getInstalled (source : GithubSource) : Outcome String InstalledPlugin :=
  match store.plugins.get source with
  | none => err ("plugin " ++ sourceText source ++ " is not installed")
  | some plugin => ok plugin

def rollbackRelease (source : GithubSource) (version : Option Version) :
    Outcome String Edit := do
  let current ← getInstalled store source
  match store.releaseHistory.reverse.find? fun snapshot =>
      snapshot.source = source && snapshot.packageDigest ≠ current.packageDigest &&
        version.all fun version => snapshot.version = version with
  | none =>
    match version with
    | some version =>
      err ("no retained " ++ sourceText source ++ " release " ++ version.display ++
        " is available")
    | none => err ("no previous retained release of " ++ sourceText source ++ " is available")
  | some snapshot => do
    packagePath snapshot.packageDigest
    bailIf (!files.isDirectory snapshot.packageDigest) "retained rollback package is missing"
    installDirectoryAs files store (files.inspect snapshot.packageDigest) snapshot.origin true true

def setEnabled (source : GithubSource) (enabled : Bool) : Outcome String Edit := do
  let plugin ← getInstalled store source
  return ⟨some (.put { plugin with enabled := enabled } false), .done⟩

/-- `iter_mut().find(…)` and an edit of what is found. -/
def editFirst {α : Type} (p : α → Bool) (f : α → α) : List α → Option (List α)
  | [] => none
  | a :: l => if p a then some (f a :: l) else (editFirst p f l).map (a :: ·)

/-- The common part of the calls that edit an item. -/
def editItem (source : GithubSource) (itemId : String) (f : InstalledItem → InstalledItem) :
    Outcome String Edit := do
  let plugin ← getInstalled store source
  match editFirst (fun item => item.id = itemId) f plugin.items with
  | none => err ("plugin " ++ sourceText source ++ " has no item " ++ itemId)
  | some items => return ⟨some (.put { plugin with items := items } false), .done⟩

def setItemEnabled (source : GithubSource) (itemId : String) (enabled : Bool) :
    Outcome String Edit :=
  editItem store source itemId fun item => { item with enabled := enabled }

def setItemWidth (source : GithubSource) (itemId : String) (width : ℕ) :
    Outcome String Edit := do
  bailIf (!(1 ≤ width && width ≤ maxItemWidth))
    ("item width must be between 1 and " ++ toString maxItemWidth)
  editItem store source itemId fun item => { item with width := width }

def setProfileEnabled (source : GithubSource) (profileId : String) (enabled : Bool) :
    Outcome String Edit := do
  let plugin ← getInstalled store source
  match editFirst (fun profile => profile.id = profileId)
      (fun profile => { profile with enabled := enabled }) plugin.profiles with
  | none => err ("plugin " ++ sourceText source ++ " has no profile " ++ profileId)
  | some profiles => return ⟨some (.put { plugin with profiles := profiles } false), .done⟩

/-- `remove`, without the package directories that it deletes after the lock is saved. -/
def remove (source : GithubSource) : Outcome String Edit :=
  if store.plugins.containsKey source then ok ⟨some (.drop source), .removed true⟩
  else ok ⟨none, .removed false⟩

end Calls

/-- A mutating call. -/
inductive StoreCall where
  | installDirectory (inspected : Outcome String PackageInspection)
  | installReleaseArchive (inspected : Outcome String PackageInspection)
      (expectedSource : GithubSource) (expectedVersion : Version) (origin : InstalledOrigin)
  | rollbackRelease (source : GithubSource) (version : Option Version)
  | setEnabled (source : GithubSource) (enabled : Bool)
  | setItemEnabled (source : GithubSource) (itemId : String) (enabled : Bool)
  | setItemWidth (source : GithubSource) (itemId : String) (width : ℕ)
  | setProfileEnabled (source : GithubSource) (profileId : String) (enabled : Bool)
  | remove (source : GithubSource)

/-- What a call does up to the save. -/
def StoreCall.edit (files : PackageFiles) (store : PluginStore) :
    StoreCall → Outcome String Edit
  | installDirectory inspected => Packages.installDirectory files store inspected
  | installReleaseArchive inspected expectedSource expectedVersion origin =>
    Packages.installReleaseArchive files store inspected expectedSource expectedVersion origin
  | rollbackRelease source version => Packages.rollbackRelease files store source version
  | setEnabled source enabled => Packages.setEnabled store source enabled
  | setItemEnabled source itemId enabled => Packages.setItemEnabled store source itemId enabled
  | setItemWidth source itemId width => Packages.setItemWidth store source itemId width
  | setProfileEnabled source profileId enabled =>
    Packages.setProfileEnabled store source profileId enabled
  | remove source => Packages.remove store source

/-! ## The round trip -/

variable {toml : LockToml} {store : PluginStore}

lemma ext_plugins {s t : PluginStore} (hplugins : s.plugins = t.plugins)
    (hhistory : s.releaseHistory = t.releaseHistory) : s = t := by
  cases s
  cases t
  simp_all

/-- The plugins that `open` reads have different sources, and go into the map in order. -/
lemma insertPlugins_eq_ok {plugins : List InstalledPlugin} {next : PluginStore}
    (h : insertPlugins store plugins = ok next) :
    next.releaseHistory = store.releaseHistory ∧
      next.plugins = (plugins.map fun plugin => (plugin.source, plugin)).foldl
        (fun map entry => map.insert entry.1 entry.2) store.plugins := by
  induction plugins generalizing store with
  | nil =>
    obtain rfl := ok.inj h
    exact ⟨rfl, rfl⟩
  | cons plugin plugins ih =>
    simp only [insertPlugins, bind_eq_ok] at h
    obtain ⟨-, -, -, -, hrest⟩ := h
    exact ih hrest

lemma bailIf_eq_ok {condition : Bool} {message : String} {u : Unit} :
    bailIf condition message = ok u ↔ condition = false := by
  cases condition <;> simp [bailIf]

/-- The bytes of a store decode to its document. -/
lemma readDocument_encode {bytes : List UInt8} (h : store.encode toml = ok bytes) :
    readDocument toml (some bytes) = ok store.document := by
  rw [PluginStore.encode] at h
  split at h
  · simp at h
  · rename_i encoded hencoded
    simp only [bind_eq_ok, bailIf_eq_ok, pure_eq, ok.injEq] at h
    obtain ⟨_, hsize, rfl⟩ := h
    have hread := toml.lossless _ _ hencoded
    rw [readDocument, Text.length_asBytes, hsize, Text.fromUTF8?_eq_some.mpr rfl]
    dsimp only
    rw [hread]
    rfl

lemma map_values_source (store : PluginStore) :
    (store.plugins.values.map fun plugin => (plugin.source, plugin)) = store.plugins.entries := by
  rw [BTreeMap.values, List.map_map]
  conv_rhs => rw [← List.map_id store.plugins.entries]
  refine List.map_congr_left fun entry hentry => ?_
  obtain ⟨source, plugin⟩ := entry
  have hsource := store.keyed source plugin (BTreeMap.get_eq_some_iff.mpr hentry)
  simp [hsource]

/-- A store that is written and can be read is read back as it was. -/
theorem open_encode {bytes : List UInt8} {read : PluginStore}
    (hencode : store.encode toml = ok bytes)
    (hopen : PluginStore.open toml (some bytes) = ok read) : read = store := by
  simp only [PluginStore.open, readDocument_encode hencode, ok_bind, bind_eq_ok] at hopen
  obtain ⟨-, -, next, hinsert, -, -, hread⟩ := hopen
  obtain rfl := ok.inj hread
  obtain ⟨hhistory, hplugins⟩ := insertPlugins_eq_ok hinsert
  refine ext_plugins ?_ hhistory
  refine BTreeMap.eq_of_get_eq fun source => ?_
  have hentries := map_values_source store
  ext plugin
  rw [hplugins]
  show ((store.plugins.values.map fun plugin => (plugin.source, plugin)).foldl
    (fun map entry => map.insert entry.1 entry.2) BTreeMap.empty).get source = some plugin ↔ _
  rw [hentries, BTreeMap.get_foldl_insert (BTreeMap.keys_nodup _), BTreeMap.get_eq_some_iff]
  simp [BTreeMap.get_eq_some_iff]

end TouchBar.Packages
