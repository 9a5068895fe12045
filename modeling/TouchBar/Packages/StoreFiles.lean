import TouchBar.Lib.Effects
import TouchBar.Packages.StoreClients

/-!
# The files of the plugin store

The store has two places on disk: the lock file, and one directory for each package digest.
An installation puts the directory there before it saves the lock that refers to it, and a
removal saves the lock before it deletes what the lock does not refer to any more.  Here the
calls are programs that change the disk step by step; the steps in between are remembered,
since the process may die at each of them.  What the file system answers is free.
-/

namespace TouchBar.Packages

open TouchBar.Rust TouchBar.Lib TouchBar.Policy Outcome

/-! ## Disk and process -/

/-- The lock file, and the directories of the digests with their contents. -/
structure Disk (C : Type) where
  lock : Option (List UInt8)
  packages : BTreeMap String C

/-- A process with an open store. -/
structure Session (C : Type) where
  memory : PluginStore
  disk : Disk C
  /-- The disk after each of the steps of the call. -/
  points : List (Disk C)

/-- What the system calls of `atomic_private_write` return. -/
structure WriteAnswers where
  ensureParent : Outcome String Unit
  create : Outcome String Unit
  writeAll : Outcome String Unit
  syncFile : Outcome String Unit
  rename : Outcome String Unit
  syncParent : Outcome String Unit

/-- What the file system answers to a call. -/
structure CallAnswers (C : Type) where
  /-- The content of the temporary directory after `copy_members`. -/
  copied : Outcome String C
  /-- The rename of the temporary directory to its digest. -/
  commit : Outcome String Unit
  syncPackages : Outcome String Unit
  write : WriteAnswers
  /-- What is left of a directory after each of the entries that `remove_dir_all` removes. -/
  leftovers : String → List C
  removeDirectory : String → Outcome String Unit

/-- A step that changes the disk. -/
def changeDisk {C : Type} (f : Disk C → Disk C) : Prog (Session C) String Unit :=
  Prog.modify fun session =>
    { session with
      disk := f session.disk
      points := session.points ++ [f session.disk] }

def Disk.setPackage {C : Type} (digest : String) (content : C) (disk : Disk C) : Disk C :=
  { disk with packages := disk.packages.insert digest content }

def Disk.removePackage {C : Type} (digest : String) (disk : Disk C) : Disk C :=
  { disk with packages := disk.packages.remove digest }

def Disk.setLock {C : Type} (bytes : List UInt8) (disk : Disk C) : Disk C :=
  { disk with lock := some bytes }

/-! ## The calls as programs -/

section Programs

variable {C : Type} (toml : LockToml) (inspect : C → Outcome String PackageInspection)
  (answers : CallAnswers C)

/-- The package directories as they are at a step. -/
def Session.files (session : Session C) : PackageFiles where
  place _ := ok ()
  inspect digest :=
    match session.disk.packages.get digest with
    | none => err ("open package " ++ digest)
    | some content => inspect content
  isDirectory digest := session.disk.packages.containsKey digest

/-- The part of `install_directory_as` that puts the directory of the digest in place. -/
def placePackage (inspection : PackageInspection) : Prog (Session C) String Unit := do
  let session ← Prog.get id
  match session.disk.packages.get inspection.packageDigest with
  | none =>
    let content ← Prog.lift answers.copied
    let copied ← Prog.lift (inspect content)
    Prog.lift (bailIf (copied.packageDigest ≠ inspection.packageDigest ||
      copied.artifacts ≠ inspection.artifacts) "package changed while it was being installed")
    Prog.lift answers.commit
    changeDisk (Disk.setPackage inspection.packageDigest content)
    Prog.lift answers.syncPackages
  | some content =>
    let installed ← Prog.lift (inspect content)
    Prog.lift (bailIf (installed.packageDigest ≠ inspection.packageDigest)
      "content-addressed package directory is inconsistent")

/-- `install_directory_as` up to its edit. -/
def installPackage (inspected : Outcome String PackageInspection) (origin : InstalledOrigin)
    (recordRelease enforceRemoteUpdatePolicy : Bool) : Prog (Session C) String Edit := do
  let inspection ← Prog.lift inspected
  Prog.lift (validateOrigin origin inspection.version)
  Prog.lift (packagePath inspection.packageDigest)
  placePackage inspect answers inspection
  let session ← Prog.get id
  Prog.lift (installDirectoryAs (session.files inspect) session.memory (ok inspection) origin
    recordRelease enforceRemoteUpdatePolicy)

/-- The release that `rollback_release` goes back to. -/
def rollbackSnapshot (store : PluginStore) (source : GithubSource) (version : Option Version) :
    Outcome String ReleaseSnapshot := do
  let current ← getInstalled store source
  match store.releaseHistory.reverse.find? fun snapshot =>
      snapshot.source = source && snapshot.packageDigest ≠ current.packageDigest &&
        version.all fun version => snapshot.version = version with
  | none =>
    match version with
    | some version =>
      err ("no retained " ++ sourceText source ++ " release " ++ version.display ++
        " is available")
    | none => err ("no previous retained release of " ++ sourceText source ++ " is available")
  | some snapshot => ok snapshot

/-- What a call does up to the edit of the copy in memory. -/
def StoreCall.prepare : StoreCall → Prog (Session C) String Edit
  | installDirectory inspected =>
    installPackage inspect answers inspected .localDevelopment false false
  | installReleaseArchive inspected expectedSource expectedVersion origin => do
    Prog.lift (bailIf (!origin.isRelease) "a release install requires GitHub release provenance")
    let inspection ← Prog.lift inspected
    Prog.lift (bailIf (inspection.source ≠ expectedSource || inspection.version ≠ expectedVersion)
      "release package identity does not match the requested source and version")
    installPackage inspect answers inspected origin true true
  | rollbackRelease source version => do
    let session ← Prog.get id
    let snapshot ← Prog.lift (rollbackSnapshot session.memory source version)
    Prog.lift (packagePath snapshot.packageDigest)
    Prog.lift (bailIf (!(session.files inspect).isDirectory snapshot.packageDigest)
      "retained rollback package is missing")
    installPackage inspect answers ((session.files inspect).inspect snapshot.packageDigest)
      snapshot.origin true true
  | setEnabled source enabled => fun session =>
    (Packages.setEnabled session.memory source enabled, session)
  | setItemEnabled source itemId enabled => fun session =>
    (Packages.setItemEnabled session.memory source itemId enabled, session)
  | setItemWidth source itemId width => fun session =>
    (Packages.setItemWidth session.memory source itemId width, session)
  | setProfileEnabled source profileId enabled => fun session =>
    (Packages.setProfileEnabled session.memory source profileId enabled, session)
  | remove source => fun session => (Packages.remove session.memory source, session)

def atomicPrivateWrite (bytes : List UInt8) : Prog (Session C) String Unit := do
  Prog.lift answers.write.ensureParent
  Prog.lift answers.write.create
  Prog.lift answers.write.writeAll
  Prog.lift answers.write.syncFile
  Prog.lift answers.write.rename
  changeDisk (Disk.setLock bytes)
  Prog.lift answers.write.syncParent

def save : Prog (Session C) String Unit := do
  let session ← Prog.get id
  let encoded ← Prog.lift (session.memory.encode toml)
  atomicPrivateWrite answers encoded

/-- The entries of a directory go one after the other. -/
def removeEntries (digest : String) : List C → Prog (Session C) String Unit
  | [] => pure ()
  | content :: contents => do
    changeDisk (Disk.setPackage digest content)
    removeEntries digest contents

/-- `fs::remove_dir_all` on the directory of a digest. -/
def removeDirAll (digest : String) : Prog (Session C) String Unit := do
  removeEntries digest (answers.leftovers digest)
  Prog.lift (answers.removeDirectory digest)
  changeDisk (Disk.removePackage digest)

/-- A plugin or a release of the copy in memory has the digest. -/
def PluginStore.references (store : PluginStore) (digest : String) : Bool :=
  (store.plugins.values.any fun plugin => plugin.packageDigest = digest) ||
    store.releaseHistory.any fun snapshot => snapshot.packageDigest = digest

/-- The digests of a source, which `remove` looks at. -/
def PluginStore.removable (store : PluginStore) (source : GithubSource) : List String :=
  match store.plugins.get source with
  | none => []
  | some removed =>
    ((BTreeSet.ofList ((store.releaseHistory.filter fun snapshot => snapshot.source = source).map
      ReleaseSnapshot.packageDigest)).insert removed.packageDigest).toList

/-- The end of `remove`. -/
def removePackages : List String → Prog (Session C) String Unit
  | [] => Prog.lift answers.syncPackages
  | digest :: digests => do
    let session ← Prog.get id
    if session.memory.references digest then removePackages digests
    else do
      Prog.lift (packagePath digest)
      if session.disk.packages.containsKey digest then removeDirAll answers digest
      removePackages digests

/-- What a call does after it has edited the copy in memory. -/
def finishCall (removable : List String) : Change → Prog (Session C) String Unit
  | .put _ _ => save toml answers
  | .drop _ => do
    save toml answers
    removePackages answers removable

def StoreCall.run (call : StoreCall) : Prog (Session C) String Answer := do
  let edit ← call.prepare inspect answers
  match edit.change with
  | none => return edit.answer
  | some change =>
    let session ← Prog.get id
    Prog.modify fun session => { session with memory := session.memory.apply change }
    finishCall toml answers (session.memory.removable change.source) change
    return edit.answer

end Programs

/-! ## What the lock refers to -/

def StoreDocument.digests (document : StoreDocument) : List String :=
  document.plugins.map InstalledPlugin.packageDigest ++
    document.releaseHistory.map ReleaseSnapshot.packageDigest

section Intact

variable {C : Type} (toml : LockToml) (inspect : C → Outcome String PackageInspection)

/-- The directory of a digest is there, and its content has the digest. -/
def Disk.Holds (disk : Disk C) (digest : String) : Prop :=
  ∃ content inspection, disk.packages.get digest = some content ∧
    inspect content = ok inspection ∧ inspection.packageDigest = digest

/-- Every digest in the lock has its directory. -/
def Disk.Intact (disk : Disk C) : Prop :=
  ∀ document digest, readDocument toml disk.lock = ok document → digest ∈ document.digests →
    disk.Holds inspect digest

/-- What a process may leave: the lock and the copy in memory refer only to directories that
are there. -/
structure Session.Sound (session : Session C) : Prop where
  lock : session.disk.Intact toml inspect
  memory : ∀ digest ∈ session.memory.document.digests, session.disk.Holds inspect digest
  points : ∀ disk ∈ session.points, disk.Intact toml inspect

/-- The lock has been saved. -/
def Session.Saved (session : Session C) : Prop :=
  readDocument toml session.disk.lock = ok session.memory.document

end Intact

/-- The digests that a change brings in. -/
def Change.digests : Change → List String
  | put plugin _ => [plugin.packageDigest]
  | drop _ => []

section Digests

variable {store : PluginStore} {change : Change} {digest : String}

lemma mem_digests_of_get {source : GithubSource} {plugin : InstalledPlugin}
    (h : store.plugins.get source = some plugin) :
    plugin.packageDigest ∈ store.document.digests := by
  refine List.mem_append_left _ (List.mem_map_of_mem (mem_document_plugins.mpr ?_))
  rw [store.keyed source plugin h]
  exact h

lemma references_iff : store.references digest = true ↔ digest ∈ store.document.digests := by
  rw [PluginStore.references, Bool.or_eq_true, List.any_eq_true, List.any_eq_true,
    StoreDocument.digests, List.mem_append, List.mem_map, List.mem_map]
  simp only [decide_eq_true_eq]
  exact Iff.rfl

/-- A change brings in no other digests. -/
lemma mem_digests_apply (h : digest ∈ (store.apply change).document.digests) :
    digest ∈ store.document.digests ∨ digest ∈ change.digests := by
  rcases List.mem_append.mp h with h | h
  · obtain ⟨plugin, hplugin, rfl⟩ := List.mem_map.mp h
    rw [mem_document_plugins, get_apply] at hplugin
    split_ifs at hplugin with hsource
    · cases change with
      | put other recorded =>
        obtain rfl : other = plugin := Option.some.inj hplugin
        exact .inr (List.mem_singleton_self _)
      | drop source => cases hplugin
    · exact .inl (mem_digests_of_get hplugin)
  · obtain ⟨snapshot, hsnapshot, rfl⟩ := List.mem_map.mp h
    have hold : snapshot ∈ store.releaseHistory → snapshot.packageDigest ∈
        store.document.digests := fun hmem => List.mem_append_right _ (List.mem_map_of_mem hmem)
    cases change with
    | put plugin recorded =>
      cases recorded with
      | false => exact .inl (hold hsnapshot)
      | true =>
        rcases mem_of_mem_recordRelease hsnapshot with hmem | rfl
        · exact .inl (hold hmem)
        · exact .inr (List.mem_singleton_self _)
    | drop source => exact .inl (hold (List.mem_of_mem_filter hsnapshot))

lemma get_foldl_insert_mem {κ ν : Type} [LinearOrder κ] {es : List (κ × ν)} :
    ∀ {m : BTreeMap κ ν} {k : κ} {v : ν},
      (es.foldl (fun map entry => map.insert entry.1 entry.2) m).get k = some v →
        (k, v) ∈ es ∨ m.get k = some v := by
  induction es with
  | nil => exact fun h => .inr h
  | cons e es ih =>
    intro m k v h
    rcases ih h with hmem | hget
    · exact .inl (List.mem_cons_of_mem _ hmem)
    · rw [BTreeMap.get_insert] at hget
      split_ifs at hget with hkey
      · obtain rfl := Option.some.inj hget
        rw [hkey]
        exact .inl List.mem_cons_self
      · exact .inr hget

/-- The entries of a store that is opened come from the document. -/
lemma mem_of_insertPlugins {plugins : List InstalledPlugin} {next : PluginStore}
    {history : List ReleaseSnapshot} {plugin : InstalledPlugin}
    (hinsert : insertPlugins ⟨.empty, keyed_empty, history⟩ plugins = ok next)
    (h : plugin ∈ next.document.plugins) : plugin ∈ plugins := by
  rw [mem_document_plugins, (insertPlugins_eq_ok hinsert).2] at h
  rcases get_foldl_insert_mem h with hentry | hnone
  · obtain ⟨other, hother, heq⟩ := List.mem_map.mp hentry
    obtain ⟨-, rfl⟩ := Prod.mk.inj heq
    exact hother
  · cases hnone

/-- A store that is opened refers to nothing but what the lock refers to. -/
lemma mem_digests_of_open {toml : LockToml} {lock : Option (List UInt8)}
    (hopen : PluginStore.open toml lock = ok store) :
    ∃ document, readDocument toml lock = ok document ∧
      ∀ digest ∈ store.document.digests, digest ∈ document.digests := by
  simp only [PluginStore.open, bind_eq_ok] at hopen
  obtain ⟨document, hread, -, -, next, hinsert, -, -, hnext⟩ := hopen
  obtain rfl := ok.inj hnext
  have hhistory : next.releaseHistory = document.releaseHistory := (insertPlugins_eq_ok hinsert).1
  refine ⟨document, hread, fun digest hmem => ?_⟩
  rcases List.mem_append.mp hmem with hmem | hmem
  · obtain ⟨plugin, hplugin, rfl⟩ := List.mem_map.mp hmem
    exact List.mem_append_left _ (List.mem_map_of_mem (mem_of_insertPlugins hinsert hplugin))
  · refine List.mem_append_right _ ?_
    rwa [show next.document.releaseHistory = document.releaseHistory from hhistory] at hmem

end Digests

/-! ## Steps on the disk -/

section Steps

variable {C : Type} {toml : LockToml} {inspect : C → Outcome String PackageInspection}
  {disk : Disk C} {digest other : String} {content : C} {session : Session C}

lemma Disk.Holds.setPackage {inspection : PackageInspection}
    (h : disk.Holds inspect other) (hcontent : inspect content = ok inspection)
    (hdigest : inspection.packageDigest = digest) :
    (disk.setPackage digest content).Holds inspect other := by
  by_cases heq : other = digest
  · refine ⟨content, inspection, ?_, hcontent, hdigest.trans heq.symm⟩
    rw [Disk.setPackage, BTreeMap.get_insert, if_pos heq]
  · obtain ⟨kept, inspected, hget, hkept⟩ := h
    refine ⟨kept, inspected, ?_, hkept⟩
    rw [Disk.setPackage, BTreeMap.get_insert, if_neg heq]
    exact hget

lemma Disk.holds_setPackage {inspection : PackageInspection}
    (hcontent : inspect content = ok inspection) (hdigest : inspection.packageDigest = digest) :
    (disk.setPackage digest content).Holds inspect digest := by
  refine ⟨content, inspection, ?_, hcontent, hdigest⟩
  rw [Disk.setPackage, BTreeMap.get_insert, if_pos rfl]

/-- A directory keeps its content while another one is removed. -/
lemma Disk.Holds.of_get_eq {disk' : Disk C} (h : disk.Holds inspect other)
    (hget : disk'.packages.get other = disk.packages.get other) : disk'.Holds inspect other := by
  obtain ⟨content, inspection, hcontent, hinspect⟩ := h
  exact ⟨content, inspection, hget.trans hcontent, hinspect⟩

lemma Disk.Intact.of_holds {disk' : Disk C} (h : disk.Intact toml inspect)
    (hlock : disk'.lock = disk.lock)
    (hholds : ∀ digest, disk.Holds inspect digest → disk'.Holds inspect digest) :
    disk'.Intact toml inspect :=
  fun document digest hread hmem => hholds digest (h document digest (hlock ▸ hread) hmem)

/-- The session after a step on the disk. -/
def Session.onDisk (session : Session C) (f : Disk C → Disk C) : Session C :=
  { session with
    disk := f session.disk
    points := session.points ++ [f session.disk] }

lemma Session.Sound.onDisk {f : Disk C → Disk C} (h : session.Sound toml inspect)
    (hlock : (f session.disk).Intact toml inspect)
    (hmemory : ∀ digest ∈ session.memory.document.digests, (f session.disk).Holds inspect digest) :
    (session.onDisk f).Sound toml inspect := by
  refine ⟨hlock, hmemory, fun disk hmem => ?_⟩
  rcases List.mem_append.mp hmem with hmem | hmem
  · exact h.points disk hmem
  · rw [List.mem_singleton.mp hmem]
    exact hlock

/-- A step that loses no directory. -/
lemma Session.Sound.onDisk_of_holds {f : Disk C → Disk C} (h : session.Sound toml inspect)
    (hlock : (f session.disk).lock = session.disk.lock)
    (hholds : ∀ digest, session.disk.Holds inspect digest → (f session.disk).Holds inspect digest) :
    (session.onDisk f).Sound toml inspect :=
  h.onDisk (h.lock.of_holds hlock hholds) fun digest hmem => hholds digest (h.memory digest hmem)

/-- A step on a directory that neither the lock nor the copy in memory refers to. -/
lemma Session.Sound.onDisk_of_unreferenced {f : Disk C → Disk C} (h : session.Sound toml inspect)
    (hsaved : session.Saved toml) (hdigest : digest ∉ session.memory.document.digests)
    (hlock : (f session.disk).lock = session.disk.lock)
    (hget : ∀ other, other ≠ digest →
      (f session.disk).packages.get other = session.disk.packages.get other) :
    (session.onDisk f).Sound toml inspect ∧ (session.onDisk f).Saved toml := by
  have hkept : ∀ other ∈ session.memory.document.digests, (f session.disk).Holds inspect other := by
    intro other hmem
    refine (h.memory other hmem).of_get_eq (hget other ?_)
    rintro rfl
    exact hdigest hmem
  have hsaved' : readDocument toml (f session.disk).lock = ok session.memory.document := by
    rw [hlock]
    exact hsaved
  refine ⟨h.onDisk (fun document other hread hmem => ?_) hkept, hsaved'⟩
  obtain rfl := ok.inj (hsaved'.symm.trans hread)
  exact hkept other hmem

end Steps

/-! ## The programs keep the directories -/

section Keeps

variable {C : Type} {toml : LockToml} {inspect : C → Outcome String PackageInspection}
  {answers : CallAnswers C}

open Prog

lemma keeps_changeDisk {P Q : Session C → Prop} {f : Disk C → Disk C} {I : Session C → Prop}
    (h : ∀ session, P session → I (session.onDisk f) ∧ Q (session.onDisk f)) :
    Keeps P (changeDisk f) (fun _ => Q) I := keeps_modify h

lemma keeps_placePackage {inspection : PackageInspection} :
    Keeps (Session.Sound toml inspect) (placePackage inspect answers inspection)
      (fun _ session => session.Sound toml inspect ∧
        session.disk.Holds inspect inspection.packageDigest) (Session.Sound toml inspect) := by
  refine keeps_get_bind fun session hsound => ?_
  have hkeep : ∀ s, s = session → s.Sound toml inspect := fun s hs => hs ▸ hsound
  dsimp only [id]
  cases hget : session.disk.packages.get inspection.packageDigest with
  | none =>
    refine keeps_lift_bind hkeep fun content _ => ?_
    refine keeps_lift_bind hkeep fun copied hcopied => ?_
    refine keeps_lift_bind hkeep fun _ hsame => ?_
    refine keeps_lift_bind hkeep fun _ _ => ?_
    rw [bailIf_eq_ok, Bool.or_eq_false_iff, decide_eq_false_iff_not, not_not] at hsame
    -- what is committed has been inspected
    have hplaced : (session.onDisk (Disk.setPackage inspection.packageDigest content)).Sound
        toml inspect := hsound.onDisk_of_holds rfl fun other h => h.setPackage hcopied hsame.1
    have hholds : (session.onDisk (Disk.setPackage inspection.packageDigest content)).disk.Holds
        inspect inspection.packageDigest := Disk.holds_setPackage hcopied hsame.1
    refine keeps_bind (Q := fun _ s => s.Sound toml inspect ∧
        s.disk.Holds inspect inspection.packageDigest) (keeps_changeDisk fun s hs => ?_) fun _ => ?_
    · rw [hs]
      exact ⟨hplaced, hplaced, hholds⟩
    · exact keeps_lift (fun s hs => hs.1) fun _ _ s hs => hs
  | some content =>
    refine keeps_lift_bind hkeep fun installed hinstalled => ?_
    refine keeps_lift hkeep fun _ hsame s hs => ?_
    rw [bailIf_eq_ok, decide_eq_false_iff_not, not_not] at hsame
    rw [hs]
    exact ⟨hsound, content, installed, hget, hinstalled, hsame⟩

/-- The entry that an installation puts has the digest of the package. -/
lemma installDirectoryAs_eq_ok {files : PackageFiles} {store : PluginStore}
    {inspection : PackageInspection} {origin : InstalledOrigin} {record enforce : Bool}
    {edit : Edit}
    (h : installDirectoryAs files store (ok inspection) origin record enforce = ok edit) :
    ∃ plugin, edit.change = some (.put plugin record) ∧
      plugin.packageDigest = inspection.packageDigest := by
  simp only [installDirectoryAs, ok_bind, Outcome.bind_eq_ok, pure_eq, ok.injEq] at h
  obtain ⟨-, -, -, -, -, -, requests, -, changes, -, rfl⟩ := h
  exact ⟨_, rfl, rfl⟩

/-- What a call has prepared: an edit that brings in only digests with a directory. -/
def Session.Prepared (toml : LockToml) (inspect : C → Outcome String PackageInspection)
    (edit : Edit) (session : Session C) : Prop :=
  session.Sound toml inspect ∧ ∀ change, edit.change = some change →
    ∀ digest ∈ change.digests, session.disk.Holds inspect digest

lemma keeps_installPackage {inspected : Outcome String PackageInspection}
    {origin : InstalledOrigin} {record enforce : Bool} :
    Keeps (Session.Sound toml inspect)
      (installPackage inspect answers inspected origin record enforce)
      (Session.Prepared toml inspect) (Session.Sound toml inspect) := by
  refine keeps_lift_bind (fun _ h => h) fun inspection _ => ?_
  refine keeps_lift_bind (fun _ h => h) fun _ _ => ?_
  refine keeps_lift_bind (fun _ h => h) fun _ _ => ?_
  refine keeps_bind keeps_placePackage fun _ => ?_
  refine keeps_get_bind fun session hsession => ?_
  refine keeps_lift (fun s hs => hs ▸ hsession.1) fun edit hedit s hs => ?_
  obtain ⟨plugin, hchange, hdigest⟩ := installDirectoryAs_eq_ok hedit
  rw [hs]
  refine ⟨hsession.1, fun change heq digest hmem => ?_⟩
  obtain rfl := Option.some.inj (hchange.symm.trans heq)
  rw [List.mem_singleton.mp hmem, hdigest]
  exact hsession.2

/-- A call that edits the copy in memory puts an entry with a digest that it has already. -/
def EditsKnown (store : PluginStore) (outcome : Outcome String Edit) : Prop :=
  ∀ edit change digest, outcome = ok edit → edit.change = some change → digest ∈ change.digests →
    digest ∈ store.document.digests

lemma getInstalled_eq_ok {store : PluginStore} {source : GithubSource} {plugin : InstalledPlugin} :
    getInstalled store source = ok plugin ↔ store.plugins.get source = some plugin := by
  rw [getInstalled]
  cases store.plugins.get source <;> simp

/-- An entry of the store with the same digest. -/
lemma editsKnown_put {store : PluginStore} {source : GithubSource} {plugin edited : InstalledPlugin}
    {record : Bool} {answer : Answer} (hget : store.plugins.get source = some plugin)
    (hdigest : edited.packageDigest = plugin.packageDigest) :
    EditsKnown store (ok ⟨some (.put edited record), answer⟩) := by
  intro edit change digest hok hchange hmem
  obtain rfl := ok.inj hok
  obtain rfl := Option.some.inj hchange
  rw [List.mem_singleton.mp hmem, hdigest]
  exact mem_digests_of_get hget

lemma editsKnown_err {store : PluginStore} (message : String) : EditsKnown store (err message) :=
  fun _ _ _ h => by cases h

lemma editsKnown_setEnabled {store : PluginStore} {source : GithubSource} {enabled : Bool} :
    EditsKnown store (setEnabled store source enabled) := by
  rw [setEnabled]
  cases hget : store.plugins.get source with
  | none =>
    rw [getInstalled, hget]
    exact editsKnown_err _
  | some plugin =>
    rw [getInstalled, hget]
    exact editsKnown_put hget rfl

lemma editsKnown_editItem {store : PluginStore} {source : GithubSource} {itemId : String}
    {f : InstalledItem → InstalledItem} : EditsKnown store (editItem store source itemId f) := by
  rw [editItem]
  cases hget : store.plugins.get source with
  | none =>
    rw [getInstalled, hget]
    exact editsKnown_err _
  | some plugin =>
    rw [getInstalled, hget, ok_bind]
    split
    · exact editsKnown_err _
    · exact editsKnown_put hget rfl

lemma editsKnown_setItemWidth {store : PluginStore} {source : GithubSource} {itemId : String}
    {width : ℕ} : EditsKnown store (setItemWidth store source itemId width) := by
  rw [setItemWidth, bailIf]
  split
  · exact editsKnown_err _
  · exact editsKnown_editItem

lemma editsKnown_setProfileEnabled {store : PluginStore} {source : GithubSource}
    {profileId : String} {enabled : Bool} :
    EditsKnown store (setProfileEnabled store source profileId enabled) := by
  rw [setProfileEnabled]
  cases hget : store.plugins.get source with
  | none =>
    rw [getInstalled, hget]
    exact editsKnown_err _
  | some plugin =>
    rw [getInstalled, hget, ok_bind]
    split
    · exact editsKnown_err _
    · exact editsKnown_put hget rfl

lemma editsKnown_remove {store : PluginStore} {source : GithubSource} :
    EditsKnown store (remove store source) := by
  intro edit change digest hok hchange hmem
  rw [remove] at hok
  split_ifs at hok
  · obtain rfl := ok.inj hok
    obtain rfl := Option.some.inj hchange
    cases hmem
  · obtain rfl := ok.inj hok
    cases hchange

lemma keeps_edit {f : PluginStore → Outcome String Edit} (h : ∀ store, EditsKnown store (f store)) :
    Keeps (Session.Sound toml inspect) (fun session : Session C => (f session.memory, session))
      (Session.Prepared toml inspect) (Session.Sound toml inspect) := by
  refine fun session hsound => ⟨hsound, fun edit hedit => ⟨hsound, ?_⟩⟩
  intro change hchange digest hmem
  exact hsound.memory digest (h _ edit change digest hedit hchange hmem)

lemma keeps_prepare (call : StoreCall) :
    Keeps (Session.Sound toml inspect) (call.prepare inspect answers)
      (Session.Prepared toml inspect) (Session.Sound toml inspect) := by
  cases call with
  | installDirectory inspected => exact keeps_installPackage
  | installReleaseArchive inspected source version origin =>
    refine keeps_lift_bind (fun _ h => h) fun _ _ => ?_
    refine keeps_lift_bind (fun _ h => h) fun _ _ => ?_
    refine keeps_lift_bind (fun _ h => h) fun _ _ => ?_
    exact keeps_installPackage
  | rollbackRelease source version =>
    refine keeps_get_bind fun session hsession => ?_
    have hkeep : ∀ s, s = session → s.Sound toml inspect := fun s hs => hs ▸ hsession
    refine keeps_lift_bind hkeep fun _ _ => ?_
    refine keeps_lift_bind hkeep fun _ _ => ?_
    refine keeps_lift_bind hkeep fun _ _ => ?_
    exact keeps_weaken keeps_installPackage hkeep (fun _ _ h => h) fun _ h => h
  | setEnabled source enabled => exact keeps_edit fun _ => editsKnown_setEnabled
  | setItemEnabled source itemId enabled => exact keeps_edit fun _ => editsKnown_editItem
  | setItemWidth source itemId width => exact keeps_edit fun _ => editsKnown_setItemWidth
  | setProfileEnabled source profileId enabled =>
    exact keeps_edit fun _ => editsKnown_setProfileEnabled
  | remove source => exact keeps_edit fun _ => editsKnown_remove

lemma keeps_save : Keeps (Session.Sound toml inspect) (save toml answers)
    (fun _ session => session.Sound toml inspect ∧ session.Saved toml)
    (Session.Sound toml inspect) := by
  refine keeps_get_bind fun session hsound => ?_
  have hkeep : ∀ s, s = session → s.Sound toml inspect := fun s hs => hs ▸ hsound
  refine keeps_lift_bind hkeep fun bytes hbytes => ?_
  refine keeps_lift_bind hkeep fun _ _ => ?_
  refine keeps_lift_bind hkeep fun _ _ => ?_
  refine keeps_lift_bind hkeep fun _ _ => ?_
  refine keeps_lift_bind hkeep fun _ _ => ?_
  refine keeps_lift_bind hkeep fun _ _ => ?_
  have hread : readDocument toml (some bytes) = ok session.memory.document :=
    readDocument_encode hbytes
  have hrenamed : (session.onDisk (Disk.setLock bytes)).Sound toml inspect := by
    refine hsound.onDisk (fun document digest hdocument hmem => ?_) hsound.memory
    obtain rfl := ok.inj (hread.symm.trans hdocument)
    exact hsound.memory digest hmem
  refine keeps_bind (Q := fun _ s => s.Sound toml inspect ∧ s.Saved toml)
    (keeps_changeDisk fun s hs => ?_) fun _ => ?_
  · rw [hs]
    exact ⟨hrenamed, hrenamed, hread⟩
  · exact keeps_lift (fun s hs => hs.1) fun _ _ s hs => hs

/-- The state in which directories are deleted: the lock is that of the copy in memory, which
does not refer to the digest. -/
def Session.MayRemove (toml : LockToml) (inspect : C → Outcome String PackageInspection)
    (digest : String) (session : Session C) : Prop :=
  session.Sound toml inspect ∧ session.Saved toml ∧ digest ∉ session.memory.document.digests

lemma mayRemove_onDisk {session : Session C} {digest : String} {f : Disk C → Disk C}
    (h : session.MayRemove toml inspect digest) (hlock : (f session.disk).lock = session.disk.lock)
    (hget : ∀ other, other ≠ digest →
      (f session.disk).packages.get other = session.disk.packages.get other) :
    (session.onDisk f).MayRemove toml inspect digest := by
  obtain ⟨hsound, hsaved⟩ := h.1.onDisk_of_unreferenced h.2.1 h.2.2 hlock hget
  exact ⟨hsound, hsaved, h.2.2⟩

lemma keeps_removeEntries {digest : String} {contents : List C} :
    Keeps (Session.MayRemove toml inspect digest) (removeEntries digest contents)
      (fun _ => Session.MayRemove toml inspect digest) (Session.Sound toml inspect) := by
  induction contents with
  | nil => exact keeps_pure fun s hs => ⟨hs.1, hs⟩
  | cons content contents ih =>
    refine keeps_bind (keeps_changeDisk fun s hs => ?_) fun _ => ih
    have hnext : (s.onDisk (Disk.setPackage digest content)).MayRemove toml inspect digest := by
      refine mayRemove_onDisk hs rfl fun other hne => ?_
      rw [Disk.setPackage, BTreeMap.get_insert, if_neg hne]
    exact ⟨hnext.1, hnext⟩

lemma keeps_removeDirAll {digest : String} :
    Keeps (Session.MayRemove toml inspect digest) (removeDirAll answers digest)
      (fun _ => Session.MayRemove toml inspect digest) (Session.Sound toml inspect) := by
  refine keeps_bind keeps_removeEntries fun _ => ?_
  refine keeps_lift_bind (fun _ h => h.1) fun _ _ => ?_
  refine keeps_changeDisk fun s hs => ?_
  have hnext : (s.onDisk (Disk.removePackage digest)).MayRemove toml inspect digest := by
    refine mayRemove_onDisk hs rfl fun other hne => ?_
    rw [Disk.removePackage, BTreeMap.get_remove, if_neg hne]
  exact ⟨hnext.1, hnext⟩

lemma keeps_removePackages {digests : List String} :
    Keeps (fun session : Session C => session.Sound toml inspect ∧ session.Saved toml)
      (removePackages answers digests) (fun _ => Session.Sound toml inspect)
      (Session.Sound toml inspect) := by
  induction digests with
  | nil => exact keeps_lift (fun _ h => h.1) fun _ _ _ h => h.1
  | cons digest digests ih =>
    refine keeps_get_bind fun session hsession => ?_
    dsimp only [id]
    split_ifs with hreferenced hexists
    · exact keeps_weaken ih (fun s hs => hs ▸ hsession) (fun _ _ h => h) fun _ h => h
    all_goals
      have hmay : session.MayRemove toml inspect digest :=
        ⟨hsession.1, hsession.2, fun hmem => hreferenced (references_iff.mpr hmem)⟩
      refine keeps_lift_bind (fun s hs => hs ▸ hsession.1) fun _ _ => ?_
    · refine keeps_bind (keeps_weaken keeps_removeDirAll (fun s hs => hs ▸ hmay) (fun _ _ h => h)
        fun _ h => h) fun _ => ?_
      exact keeps_weaken ih (fun s hs => ⟨hs.1, hs.2.1⟩) (fun _ _ h => h) fun _ h => h
    · exact keeps_weaken ih (fun s hs => hs ▸ hsession) (fun _ _ h => h) fun _ h => h

/-- Whatever a call does, the lock and the copy in memory refer only to directories that are
there, at every step. -/
theorem keeps_run (call : StoreCall) :
    Keeps (Session.Sound toml inspect) (call.run toml inspect answers)
      (fun _ => Session.Sound toml inspect) (Session.Sound toml inspect) := by
  refine keeps_bind (keeps_prepare call) fun edit => ?_
  cases hchange : edit.change with
  | none => exact keeps_pure fun s hs => ⟨hs.1, hs.1⟩
  | some change =>
    refine keeps_get_bind fun session hsession => ?_
    refine keeps_bind (Q := fun _ => Session.Sound toml inspect) (keeps_modify fun s hs => ?_)
      fun _ => keeps_bind (Q := fun _ => Session.Sound toml inspect) ?_ fun _ => ?_
    · rw [hs]
      have hnext : Session.Sound toml inspect
          { session with memory := session.memory.apply change } := by
        refine ⟨hsession.1.lock, fun digest hmem => ?_, hsession.1.points⟩
        rcases mem_digests_apply hmem with hold | hnew
        · exact hsession.1.memory digest hold
        · exact hsession.2 change hchange digest hnew
      exact ⟨hnext, hnext⟩
    · cases change with
      | put plugin recorded =>
        exact keeps_weaken keeps_save (fun _ h => h) (fun _ _ h => h.1) fun _ h => h
      | drop source => exact keeps_bind keeps_save fun _ => keeps_removePackages
    · exact keeps_pure fun s hs => ⟨hs, hs⟩

end Keeps

/-! ## The main result -/

section Reachable

variable {C : Type} (toml : LockToml) (inspect : C → Outcome String PackageInspection)

/-- The disks that processes leave, with the copy in memory of the one that runs: a process
opens the store, makes calls with any answers, and may die at every step of a call. -/
inductive Reachable : Disk C → Option PluginStore → Prop where
  | fresh : Reachable ⟨none, .empty⟩ none
  | opens {disk : Disk C} {memory : Option PluginStore} {store : PluginStore}
      (before : Reachable disk memory) (h : PluginStore.open toml disk.lock = ok store) :
      Reachable disk (some store)
  | returns {disk : Disk C} {store : PluginStore} (before : Reachable disk (some store))
      (call : StoreCall) (answers : CallAnswers C) {outcome : Outcome String Answer}
      {session : Session C}
      (h : call.run toml inspect answers ⟨store, disk, []⟩ = (outcome, session)) :
      Reachable session.disk (some session.memory)
  | dies {disk : Disk C} {store : PluginStore} (before : Reachable disk (some store))
      (call : StoreCall) (answers : CallAnswers C) {outcome : Outcome String Answer}
      {session : Session C} {point : Disk C}
      (h : call.run toml inspect answers ⟨store, disk, []⟩ = (outcome, session))
      (hpoint : point ∈ session.points) : Reachable point none

variable {toml inspect}

/-- What every disk has, and the process that runs on it. -/
lemma Reachable.sound {disk : Disk C} {memory : Option PluginStore}
    (h : Reachable toml inspect disk memory) :
    disk.Intact toml inspect ∧
      ∀ store, memory = some store → (⟨store, disk, []⟩ : Session C).Sound toml inspect := by
  induction h with
  | fresh =>
    refine ⟨fun document digest hread hmem => ?_, fun store h => by cases h⟩
    obtain rfl := ok.inj hread
    cases hmem
  | @opens disk _ store _ hopen ih =>
    refine ⟨ih.1, fun store' hstore => ?_⟩
    obtain rfl := Option.some.inj hstore
    obtain ⟨document, hread, hdigests⟩ := mem_digests_of_open hopen
    exact ⟨ih.1, fun digest hmem => ih.1 document digest hread (hdigests digest hmem),
      fun _ h => by cases h⟩
  | @returns disk store _ call answers outcome session hrun ih =>
    have hsound := (@keeps_run C toml inspect answers call _ (ih.2 store rfl)).1
    rw [hrun] at hsound
    refine ⟨hsound.lock, fun store' hstore => ?_⟩
    obtain rfl := Option.some.inj hstore
    exact ⟨hsound.lock, hsound.memory, fun _ h => by cases h⟩
  | @dies disk store _ call answers outcome session point hrun hpoint ih =>
    have hsound := (@keeps_run C toml inspect answers call _ (ih.2 store rfl)).1
    rw [hrun] at hsound
    exact ⟨hsound.points point hpoint, fun _ h => by cases h⟩

/-- Whatever calls are made, with whatever success, and wherever a process dies: the lock
refers only to digests whose directories are there, with the content of the digest. -/
theorem lock_refers_to_packages {disk : Disk C} {memory : Option PluginStore}
    (h : Reachable toml inspect disk memory) {document : StoreDocument} {digest : String}
    (hread : readDocument toml disk.lock = ok document)
    (hdigest : digest ∈ document.plugins.map InstalledPlugin.packageDigest ++
      document.releaseHistory.map ReleaseSnapshot.packageDigest) :
    ∃ content inspection, disk.packages.get digest = some content ∧
      inspect content = ok inspection ∧ inspection.packageDigest = digest :=
  h.sound.1 document digest hread hdigest

end Reachable

/-- The checks of `rollback_release` come in the same order in the model without files. -/
theorem rollbackRelease_eq (files : PackageFiles) (store : PluginStore) (source : GithubSource)
    (version : Option Version) :
    rollbackRelease files store source version = (do
      let snapshot ← rollbackSnapshot store source version
      packagePath snapshot.packageDigest
      bailIf (!files.isDirectory snapshot.packageDigest) "retained rollback package is missing"
      installDirectoryAs files store (files.inspect snapshot.packageDigest) snapshot.origin true
        true) := by
  unfold rollbackRelease rollbackSnapshot
  cases getInstalled store source with
  | ok current =>
    simp only [ok_bind]
    cases hfind : store.releaseHistory.reverse.find? fun snapshot =>
      snapshot.source = source && snapshot.packageDigest ≠ current.packageDigest &&
        version.all fun version => snapshot.version = version with
    | none => cases version <;> rfl
    | some snapshot => rfl
  | err message => rfl
  | panic => rfl

/-! ## A package is installed -/

def clockInspection : PackageInspection where
  source := ⟨"example", "clock"⟩
  version := ⟨1, 0, 0, "", ""⟩
  runtime := .component
  items := [⟨"clock", "Clock", 160⟩]
  profiles := []
  requests := []
  packageDigest := digestOf 'a'
  artifacts := BTreeMap.empty.insert "plugin.wasm" (digestOf 'a')

def clockText : String :=
  "schema_version = 1\nrelease_history = []\n\n" ++ pluginText "clock" 'a' false

/-- A library that knows the document with the clock. -/
def clockToml : LockToml where
  fromStr text := if text = clockText then .ok ⟨1, [clockPlugin "clock" 'a' false], []⟩
    else .error "expected `plugins`"
  toStringPretty document := if document = ⟨1, [clockPlugin "clock" 'a' false], []⟩
    then .ok clockText else .error "unsupported document"
  lossless := by
    intro document text h
    split_ifs at h with hdocument
    obtain rfl := Except.ok.inj h
    rw [if_pos rfl, hdocument]

/-- Every system call succeeds. -/
def allSucceed : CallAnswers Unit where
  copied := ok ()
  commit := ok ()
  syncPackages := ok ()
  write := ⟨ok (), ok (), ok (), ok (), ok (), ok ()⟩
  leftovers _ := []
  removeDirectory _ := ok ()

def emptyStore : PluginStore := ⟨.empty, keyed_empty, []⟩

/-- The session after the clock is installed. -/
def clockInstalled : Outcome String Answer × Session Unit :=
  (StoreCall.installDirectory (ok clockInspection)).run clockToml (fun _ => ok clockInspection)
    allSucceed ⟨emptyStore, ⟨none, .empty⟩, []⟩

theorem lock_refers_to_packages_clock :
    readDocument clockToml clockInstalled.2.disk.lock =
      ok ⟨1, [clockPlugin "clock" 'a' false], []⟩ ∧
    ∃ content, clockInstalled.2.disk.packages.get (digestOf 'a') = some content := by
  have hread : readDocument clockToml clockInstalled.2.disk.lock =
      ok ⟨1, [clockPlugin "clock" 'a' false], []⟩ := by decide +kernel
  have hopened : Reachable clockToml (fun _ => ok clockInspection)
      (⟨none, .empty⟩ : Disk Unit) (some emptyStore) := .opens .fresh rfl
  have hreachable : Reachable clockToml (fun _ => ok clockInspection) clockInstalled.2.disk
      (some clockInstalled.2.memory) := .returns hopened _ allSucceed (Prod.mk.eta).symm
  have hplugin : (clockPlugin "clock" 'a' false).packageDigest ∈
      [clockPlugin "clock" 'a' false].map InstalledPlugin.packageDigest ++
        ([] : List ReleaseSnapshot).map ReleaseSnapshot.packageDigest :=
    List.mem_append_left _ (List.mem_map_of_mem (List.mem_singleton_self _))
  obtain ⟨content, _, hcontent, -⟩ := lock_refers_to_packages hreachable hread hplugin
  exact ⟨hread, content, hcontent⟩

end TouchBar.Packages
