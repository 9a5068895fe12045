import TouchBar.Packages.StoreFiles

/-!
# Calls of the plugin store that fail

A call edits the copy in memory and saves it afterwards.  If it fails in between, the edit
stays in memory, and the next call that succeeds saves it too.  So a failing call leaves the
copy and the lock file as they were exactly if its edit makes no difference.
-/

namespace TouchBar.Packages

open TouchBar.Rust TouchBar.Lib TouchBar.Policy Outcome

/-! ## What a call leaves where it fails -/

/-- The system calls up to the rename of the lock file succeed. -/
structure WriteAnswers.Renames (answers : WriteAnswers) : Prop where
  ensureParent : answers.ensureParent = ok ()
  create : answers.create = ok ()
  writeAll : answers.writeAll = ok ()
  syncFile : answers.syncFile = ok ()
  rename : answers.rename = ok ()

section Ends

variable {C : Type} (toml : LockToml) (inspect : C → Outcome String PackageInspection)
  (answers : CallAnswers C) (call : StoreCall) (session : Session C)

/-- A reopening reads the copy in memory. -/
def Session.InSync : Prop := PluginStore.open toml session.disk.lock = ok session.memory

/-- The call stops before it edits the copy in memory, or its edit makes no difference. -/
def LeavesCopy : Prop :=
  ∀ edit change, (call.prepare inspect answers session).1 = ok edit →
    edit.change = some change → session.memory.apply change = session.memory

/-- The call has replaced the lock file, and a reopening reads the copy from the new one. -/
def Renews : Prop :=
  ∃ edit change bytes, (call.prepare inspect answers session).1 = ok edit ∧
    edit.change = some change ∧ (session.memory.apply change).encode toml = ok bytes ∧
    answers.write.Renames ∧ PluginStore.open toml (some bytes) = ok session.memory

end Ends

section Parts

variable {C : Type} {toml : LockToml} {inspect : C → Outcome String PackageInspection}
  {answers : CallAnswers C} {store : PluginStore} {lock : Option (List UInt8)}

open Prog

/-- The session has this copy in memory and this lock file. -/
def Session.Has (store : PluginStore) (lock : Option (List UInt8)) (session : Session C) : Prop :=
  session.memory = store ∧ session.disk.lock = lock

/-- A program that touches neither the copy in memory nor the lock file. -/
def Frames {α : Type} (x : Prog (Session C) String α) : Prop :=
  ∀ store lock, Keeps (Session.Has store lock) x (fun _ => Session.Has store lock)
    (Session.Has store lock)

lemma frames_lift {α : Type} (o : Outcome String α) : Frames (lift o : Prog (Session C) String α) :=
  fun _ _ => keeps_lift (fun _ h => h) fun _ _ _ h => h

lemma Frames.bind {α β : Type} {x : Prog (Session C) String α}
    {f : α → Prog (Session C) String β} (hx : Frames x) (hf : ∀ a, Frames (f a)) :
    Frames (x >>= f) := fun store lock => keeps_bind (hx store lock) fun a => hf a store lock

lemma frames_get {α : Type} (f : Session C → α) : Frames (Prog.get f) :=
  fun _ _ _ hs => ⟨hs, fun _ _ => hs⟩

lemma frames_pure {α : Type} (a : α) : Frames (pure a : Prog (Session C) String α) :=
  fun _ _ => keeps_pure fun _ h => ⟨h, h⟩

lemma frames_edit (f : Session C → Outcome String Edit) :
    Frames fun session : Session C => (f session, session) :=
  fun _ _ _ hs => ⟨hs, fun _ _ => hs⟩

/-- A step on a package directory. -/
lemma frames_changeDisk {f : Disk C → Disk C} (h : ∀ disk, (f disk).lock = disk.lock) :
    Frames (changeDisk f) :=
  fun _ _ => keeps_changeDisk fun session hs =>
    have hnext := ⟨hs.1, (h session.disk).trans hs.2⟩
    ⟨hnext, hnext⟩

lemma frames_placePackage (inspection : PackageInspection) :
    Frames (placePackage inspect answers inspection) := by
  refine (frames_get _).bind fun session => ?_
  split
  · refine (frames_lift _).bind fun content => (frames_lift _).bind fun copied => ?_
    refine (frames_lift _).bind fun _ => (frames_lift _).bind fun _ => ?_
    exact (frames_changeDisk fun _ => rfl).bind fun _ => frames_lift _
  · exact (frames_lift _).bind fun installed => frames_lift _

lemma frames_installPackage (inspected : Outcome String PackageInspection)
    (origin : InstalledOrigin) (record enforce : Bool) :
    Frames (installPackage inspect answers inspected origin record enforce) := by
  refine (frames_lift _).bind fun inspection => (frames_lift _).bind fun _ => ?_
  refine (frames_lift _).bind fun _ => (frames_placePackage inspection).bind fun _ => ?_
  exact (frames_get _).bind fun session => frames_lift _

lemma frames_prepare (call : StoreCall) : Frames (call.prepare inspect answers) := by
  cases call with
  | installDirectory inspected => exact frames_installPackage _ _ _ _
  | installReleaseArchive inspected source version origin =>
    refine (frames_lift _).bind fun _ => (frames_lift _).bind fun _ => ?_
    exact (frames_lift _).bind fun _ => frames_installPackage _ _ _ _
  | rollbackRelease source version =>
    refine (frames_get _).bind fun session => (frames_lift _).bind fun snapshot => ?_
    refine (frames_lift _).bind fun _ => (frames_lift _).bind fun _ => ?_
    exact frames_installPackage _ _ _ _
  | setEnabled source enabled => exact frames_edit _
  | setItemEnabled source itemId enabled => exact frames_edit _
  | setItemWidth source itemId width => exact frames_edit _
  | setProfileEnabled source profileId enabled => exact frames_edit _
  | remove source => exact frames_edit _

lemma frames_removeEntries (digest : String) (contents : List C) :
    Frames (removeEntries digest contents) := by
  induction contents with
  | nil => exact frames_pure ()
  | cons content contents ih =>
    have hstep : Frames (changeDisk (Disk.setPackage digest content)) :=
      frames_changeDisk fun _ => rfl
    exact hstep.bind fun _ => ih

lemma frames_removePackages (digests : List String) : Frames (removePackages answers digests) := by
  induction digests with
  | nil => exact frames_lift _
  | cons digest digests ih =>
    refine (frames_get _).bind fun session => ?_
    split_ifs
    · exact ih
    · refine (frames_lift _).bind fun _ => Frames.bind ?_ fun _ => ih
      refine (frames_removeEntries _ _).bind fun _ => (frames_lift _).bind fun _ => ?_
      exact frames_changeDisk fun _ => rfl
    · exact (frames_lift _).bind fun _ => ih

/-- The lock file after the save of a copy: the old one, or the encoding of the copy. -/
def SavedLock (toml : LockToml) (answers : WriteAnswers) (store : PluginStore)
    (lock after : Option (List UInt8)) : Prop :=
  (after = lock ∧ ∀ bytes, store.encode toml = ok bytes → ¬ answers.Renames) ∨
    ∃ bytes, store.encode toml = ok bytes ∧ answers.Renames ∧ after = some bytes

lemma keeps_save_lock : Keeps (Session.Has store lock) (save toml answers : Prog (Session C) _ _)
    (fun _ session => session.memory = store ∧
      SavedLock toml answers.write store lock session.disk.lock)
    (fun session => session.memory = store ∧
      SavedLock toml answers.write store lock session.disk.lock) := by
  refine keeps_get_bind fun session hsession => ?_
  obtain ⟨rfl, rfl⟩ := hsession
  -- an error before the rename leaves the lock file
  have hearly : (∀ bytes, session.memory.encode toml = ok bytes → ¬ answers.write.Renames) →
      ∀ s, s = session → s.memory = session.memory ∧
        SavedLock toml answers.write session.memory session.disk.lock s.disk.lock := by
    rintro hnot s rfl
    exact ⟨rfl, .inl ⟨rfl, hnot⟩⟩
  refine keeps_lift_bind_of_ne (fun hne => hearly fun bytes h => absurd h (hne bytes))
    fun bytes hbytes => ?_
  refine keeps_lift_bind_of_ne (fun hne => hearly fun _ _ h => hne () h.ensureParent)
    fun _ hparent => ?_
  refine keeps_lift_bind_of_ne (fun hne => hearly fun _ _ h => hne () h.create) fun _ hcreate => ?_
  refine keeps_lift_bind_of_ne (fun hne => hearly fun _ _ h => hne () h.writeAll) fun _ hwrite => ?_
  refine keeps_lift_bind_of_ne (fun hne => hearly fun _ _ h => hne () h.syncFile) fun _ hsync => ?_
  refine keeps_lift_bind_of_ne (fun hne => hearly fun _ _ h => hne () h.rename) fun _ hrename => ?_
  have hsaved : SavedLock toml answers.write session.memory session.disk.lock (some bytes) :=
    .inr ⟨bytes, hbytes, ⟨hparent, hcreate, hwrite, hsync, hrename⟩, rfl⟩
  refine keeps_bind (Q := fun _ s => s.memory = session.memory ∧
    SavedLock toml answers.write session.memory session.disk.lock s.disk.lock)
    (keeps_changeDisk fun s hs => ?_) fun _ => keeps_lift (fun _ h => h) fun _ _ _ h => h
  rw [hs]
  exact ⟨⟨rfl, hsaved⟩, rfl, hsaved⟩

/-- Where a call ends in an error, it has stopped before its edit, or it has edited the copy in
memory and saved it or not. -/
lemma run_eq_err {call : StoreCall} {session after : Session C} {e : String}
    (h : call.run toml inspect answers session = (err e, after)) :
    (after.memory = session.memory ∧ after.disk.lock = session.disk.lock ∧
      ∀ edit, (call.prepare inspect answers session).1 ≠ ok edit) ∨
    ∃ edit change, (call.prepare inspect answers session).1 = ok edit ∧
      edit.change = some change ∧ after.memory = session.memory.apply change ∧
      SavedLock toml answers.write (session.memory.apply change) session.disk.lock
        after.disk.lock := by
  have hprepare := (@frames_prepare C inspect answers call session.memory session.disk.lock session
    ⟨rfl, rfl⟩).1
  change Prog.bind _ _ session = _ at h
  unfold Prog.bind at h
  cases hrun : call.prepare inspect answers session with
  | mk outcome prepared =>
    rw [hrun] at h hprepare
    obtain ⟨hmemory, hlock⟩ := hprepare
    cases outcome with
    | ok edit =>
      dsimp only at h
      cases hchange : edit.change with
      | none =>
        rw [hchange] at h
        cases h
      | some change =>
        rw [hchange] at h
        refine .inr ⟨edit, change, rfl, hchange, ?_⟩
        -- the edit in memory, the save, and the end of `remove`
        have hfinish : Keeps (Session.Has (session.memory.apply change) session.disk.lock)
            (finishCall toml answers (prepared.memory.removable change.source) change :
              Prog (Session C) String Unit)
            (fun _ s => s.memory = session.memory.apply change ∧ SavedLock toml answers.write
              (session.memory.apply change) session.disk.lock s.disk.lock)
            (fun s => s.memory = session.memory.apply change ∧ SavedLock toml answers.write
              (session.memory.apply change) session.disk.lock s.disk.lock) := by
          cases change with
          | put plugin recorded => exact keeps_save_lock
          | drop source =>
            refine keeps_bind keeps_save_lock fun _ => ?_
            refine fun s hs => ?_
            obtain ⟨hI, hQ⟩ := @frames_removePackages C answers
              (prepared.memory.removable source) s.memory s.disk.lock s ⟨rfl, rfl⟩
            refine ⟨⟨hI.1.trans hs.1, hI.2 ▸ hs.2⟩, fun a ha => ?_⟩
            exact ⟨(hQ a ha).1.trans hs.1, (hQ a ha).2 ▸ hs.2⟩
        have hrest := (keeps_bind hfinish fun _ => keeps_pure (a := edit.answer)
          (Q := fun _ _ => True) fun s hs => ⟨hs, trivial⟩)
          { prepared with memory := prepared.memory.apply change } ⟨by rw [hmemory], hlock⟩
        have hafter := congrArg Prod.snd h
        change _ = after at hafter
        rw [← hafter]
        exact hrest.1
    | err e' =>
      obtain ⟨-, rfl⟩ := Prod.mk.inj h
      exact .inl ⟨hmemory, hlock, fun edit h => by cases h⟩
    | panic => cases h

end Parts

/-! ## Edits that make no difference -/

/-- An entry that is there already, with its release. -/
lemma apply_put_eq_self_iff {store : PluginStore} {plugin : InstalledPlugin} {recorded : Bool} :
    store.apply (.put plugin recorded) = store ↔
      store.plugins.get plugin.source = some plugin ∧ (recorded = true →
        recordRelease store.releaseHistory plugin.snapshot = store.releaseHistory) := by
  constructor
  · intro h
    have hget := @get_apply store (.put plugin recorded) plugin.source
    rw [h, Change.source, if_pos rfl] at hget
    refine ⟨hget, fun hrecorded => ?_⟩
    have hhistory := congrArg PluginStore.releaseHistory h
    rwa [PluginStore.apply, if_pos hrecorded] at hhistory
  · rintro ⟨hget, hhistory⟩
    refine ext_plugins (BTreeMap.insert_eq_self hget) ?_
    show (if recorded then _ else _) = _
    split_ifs with hrecorded
    · exact hhistory hrecorded
    · rfl

/-! ## The main result -/

lemma insertPlugins_returns {plugins : List InstalledPlugin} :
    ∀ {store : PluginStore}, (∀ plugin ∈ plugins, validateInstalled plugin = ok ()) →
      (plugins.map InstalledPlugin.source).Nodup →
      (∀ plugin ∈ plugins, store.plugins.containsKey plugin.source = false) →
        ∃ next, insertPlugins store plugins = ok next := by
  induction plugins with
  | nil => exact fun _ _ _ => ⟨_, rfl⟩
  | cons plugin plugins ih =>
    intro store hvalid hnodup hnew
    rw [List.map_cons, List.nodup_cons] at hnodup
    rw [insertPlugins_cons (hvalid plugin List.mem_cons_self) (hnew plugin List.mem_cons_self)]
    refine ih (fun other hmem => hvalid other (List.mem_cons_of_mem _ hmem)) hnodup.2
      fun other hmem => ?_
    rw [BTreeMap.containsKey_eq_false_iff]
    show (store.plugins.insert plugin.source plugin).get other.source = none
    rw [BTreeMap.get_insert, if_neg]
    · exact BTreeMap.containsKey_eq_false_iff.mp (hnew other (List.mem_cons_of_mem _ hmem))
    · intro heq
      exact hnodup.1 (heq ▸ List.mem_map_of_mem hmem)

lemma validateInstalled_of_insertPlugins {plugins : List InstalledPlugin} :
    ∀ {store next : PluginStore}, insertPlugins store plugins = ok next →
      ∀ plugin ∈ plugins, validateInstalled plugin = ok () := by
  induction plugins with
  | nil => exact fun _ _ h => by cases h
  | cons plugin plugins ih =>
    intro store next h other hmem
    simp only [insertPlugins, Outcome.bind_eq_ok] at h
    obtain ⟨_, hvalid, _, -, hrest⟩ := h
    rcases List.mem_cons.mp hmem with rfl | hmem
    · exact hvalid
    · exact ih hrest other hmem

/-- What is written of a store that was opened is read back. -/
lemma open_encode_of_open {toml : LockToml} {store : PluginStore} {lock : Option (List UInt8)}
    {bytes : List UInt8} (hopen : PluginStore.open toml lock = ok store)
    (hencode : store.encode toml = ok bytes) :
    PluginStore.open toml (some bytes) = ok store := by
  have hopen' := hopen
  simp only [PluginStore.open, Outcome.bind_eq_ok, bailIf_eq_ok] at hopen'
  obtain ⟨document, hread, _, hhistory, next, hinsert, _, hreleases, hnext⟩ := hopen'
  obtain rfl := ok.inj hnext
  have hsame := (insertPlugins_eq_ok hinsert).1
  have hsources : (next.document.plugins.map InstalledPlugin.source).Nodup := by
    have hkeys : next.document.plugins.map InstalledPlugin.source = next.plugins.keys := by
      rw [BTreeMap.keys, ← map_values_source next, List.map_map]
      rfl
    rw [hkeys]
    exact BTreeMap.keys_nodup _
  obtain ⟨read, hread'⟩ := @insertPlugins_returns next.document.plugins
    ⟨.empty, keyed_empty, next.document.releaseHistory⟩
    (fun plugin hplugin => validateInstalled_of_insertPlugins hinsert plugin
      (mem_of_insertPlugins hinsert hplugin))
    hsources fun _ _ => rfl
  have hhistory' : next.document.releaseHistory = document.releaseHistory := hsame
  have hopened : PluginStore.open toml (some bytes) = ok read := by
    refine open_of_document (readDocument_encode hencode) ?_ hread' ?_
    · rw [hhistory']
      simpa using hhistory
    · rw [hhistory']
      exact hreleases
  rw [hopened, open_encode hencode hopened]

/-- The temporary file of the lock cannot be created. -/
def diskFull : CallAnswers Unit :=
  { allSucceed with
    write := { allSucceed.write with create := err "No space left on device (os error 28)" } }

/-- The clock and the timer are installed and disabled, in memory and on disk. -/
def disabledSession : Session Unit := ⟨twoPluginsStore (false, false), ⟨bothDisabled, .empty⟩, []⟩

lemma inSync_disabledSession : disabledSession.InSync twoPluginsToml :=
  open_twoPlugins (false, false)

/-- The call that sets the clock enabled or disabled, on a full disk. -/
lemma run_setEnabled_diskFull (enabled : Bool) :
    (StoreCall.setEnabled ⟨"example", "clock"⟩ enabled).run twoPluginsToml
      (fun _ => err "unavailable") diskFull disabledSession =
      (err "No space left on device (os error 28)",
        { disabledSession with memory := twoPluginsStore (enabled, false) }) := by
  have hget : getInstalled (twoPluginsStore (false, false)) ⟨"example", "clock"⟩ =
      ok (clockPlugin "clock" 'a' false) := by decide
  have happly : (twoPluginsStore (false, false)).apply
      (.put (clockPlugin "clock" 'a' enabled) false) = twoPluginsStore (enabled, false) := by
    cases enabled <;> decide
  have hprepare : (StoreCall.setEnabled ⟨"example", "clock"⟩ enabled).prepare
      (fun _ => err "unavailable") diskFull disabledSession =
      (ok ⟨some (.put (clockPlugin "clock" 'a' enabled) false), .done⟩, disabledSession) := by
    show (Packages.setEnabled (twoPluginsStore (false, false)) _ _, disabledSession) = _
    rw [Packages.setEnabled, hget]
    rfl
  have hsave : save twoPluginsToml diskFull
      { disabledSession with memory := twoPluginsStore (enabled, false) } =
      (err "No space left on device (os error 28)",
        { disabledSession with memory := twoPluginsStore (enabled, false) }) := by
    show (Prog.lift ((twoPluginsStore (enabled, false)).encode twoPluginsToml) >>= _ :
      Prog (Session Unit) String Unit) _ = _
    rw [encode_twoPlugins]
    rfl
  rw [StoreCall.run, Prog.bind_of_ok hprepare]
  show (save twoPluginsToml diskFull >>= fun _ => _ : Prog (Session Unit) String Answer)
    { disabledSession with
      memory := (twoPluginsStore (false, false)).apply
        (.put (clockPlugin "clock" 'a' enabled) false) } = _
  rw [happly, Prog.bind_of_err hsave]

end TouchBar.Packages
