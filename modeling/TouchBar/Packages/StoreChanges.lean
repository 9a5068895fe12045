import TouchBar.Packages.PluginStore

/-!
# What a change of the plugin store leaves

A change puts the entry of its source, or drops it, and records a release.  What it leaves
is in the file that is written next.  A change of another source on top of it does not touch
the entry, and it does not push the release out of the history.
-/

namespace TouchBar.Packages

open TouchBar.Rust TouchBar.Policy Outcome

/-! ## What a change leaves behind -/

/-- A document has the entry that a change leaves of its source. -/
def Change.HasEntry (document : StoreDocument) : Change → Prop
  | put plugin _ => plugin ∈ document.plugins
  | drop source => ∀ plugin ∈ document.plugins, plugin.source ≠ source

/-- A document has the releases that a change leaves. -/
def Change.HasReleases (document : StoreDocument) : Change → Prop
  | put plugin recorded => recorded = true → plugin.snapshot ∈ document.releaseHistory
  | drop source => ∀ snapshot ∈ document.releaseHistory, snapshot.source ≠ source

/-- The lock file decodes to a document that has the effect of a change. -/
def Change.InLock (toml : LockToml) (lock : Option (List UInt8)) (change : Change) : Prop :=
  ∃ document, readDocument toml lock = ok document ∧ change.HasEntry document ∧
    change.HasReleases document

/-- The lock file has the entry that a change leaves. -/
def Change.EntryInLock (toml : LockToml) (lock : Option (List UInt8)) (change : Change) : Prop :=
  ∃ document, readDocument toml lock = ok document ∧ change.HasEntry document

/-! ## Changes of different sources -/

section Changes

variable {store : PluginStore} {change next : Change}

lemma mem_document_plugins {plugin : InstalledPlugin} :
    plugin ∈ store.document.plugins ↔ store.plugins.get plugin.source = some plugin := by
  show plugin ∈ store.plugins.values ↔ _
  rw [BTreeMap.mem_values_iff]
  constructor
  · rintro ⟨source, hget⟩
    rw [store.keyed source plugin hget]
    exact hget
  · exact fun hget => ⟨_, hget⟩

/-- What a change leaves of its source, as a lookup. -/
def Change.entry : Change → Option InstalledPlugin
  | put plugin _ => some plugin
  | drop _ => none

lemma hasEntry_iff : change.HasEntry store.document ↔
    store.plugins.get change.source = change.entry := by
  cases change with
  | put plugin recorded => exact mem_document_plugins
  | drop source =>
    show (∀ plugin ∈ store.document.plugins, plugin.source ≠ source) ↔
      store.plugins.get source = none
    constructor
    · intro h
      cases hget : store.plugins.get source with
      | none => rfl
      | some plugin =>
        have hsource := store.keyed source plugin hget
        exact absurd hsource (h plugin (mem_document_plugins.mpr (hsource ▸ hget)))
    · intro hnone plugin hmem heq
      rw [mem_document_plugins, heq, hnone] at hmem
      cases hmem

lemma get_apply (source : GithubSource) : (store.apply change).plugins.get source =
    if source = change.source then change.entry else store.plugins.get source := by
  cases change with
  | put plugin recorded =>
    show (store.plugins.insert plugin.source plugin).get source =
      if source = plugin.source then some plugin else store.plugins.get source
    rw [BTreeMap.get_insert]
    by_cases h : source = plugin.source
    · rw [if_pos h, if_pos h]
    · rw [if_neg h, if_neg h]
  | drop dropped =>
    show (store.plugins.remove dropped).get source =
      if source = dropped then none else store.plugins.get source
    rw [BTreeMap.get_remove]
    by_cases h : source = dropped
    · rw [if_pos h, if_pos h]
    · rw [if_neg h, if_neg h]

/-- A change leaves the entry that it says. -/
lemma hasEntry_apply : change.HasEntry (store.apply change).document := by
  rw [hasEntry_iff, get_apply, if_pos rfl]

/-- A change of another source does not touch the entry. -/
lemma hasEntry_apply_iff (h : change.source ≠ next.source) :
    change.HasEntry (store.apply next).document ↔ change.HasEntry store.document := by
  rw [hasEntry_iff, hasEntry_iff, get_apply, if_neg h]

end Changes

/-! ## Releases -/

section Releases

variable {history : List ReleaseSnapshot} {snapshot other : ReleaseSnapshot}

lemma dropOldest_sublist (source : GithubSource) (excess : ℕ) :
    (dropOldest source excess history).Sublist history := by
  induction excess generalizing history with
  | zero => exact List.Sublist.refl _
  | succ excess ih => exact ih.trans List.eraseP_sublist

/-- The last release stays, if it is of another source or others are dropped before it. -/
lemma dropOldest_concat {source : GithubSource} {excess : ℕ}
    (h : snapshot.source ≠ source ∨
      excess ≤ history.countP fun candidate => candidate.source = source) :
    dropOldest source excess (history ++ [snapshot]) =
      dropOldest source excess history ++ [snapshot] := by
  induction excess generalizing history with
  | zero => rfl
  | succ excess ih =>
    rw [dropOldest, dropOldest]
    by_cases hexists : ∃ candidate ∈ history, candidate.source = source
    · -- the oldest release of the source is one before the last
      obtain ⟨candidate, hmem, hsource⟩ := hexists
      rw [List.eraseP_append_left (by simpa using hsource) _ hmem]
      refine ih (h.imp_right fun hcount => ?_)
      obtain ⟨found, front, back, -, hfound, rfl, herase⟩ :=
        @List.exists_of_eraseP _ (fun c => decide (c.source = source)) _ _ hmem
          (decide_eq_true hsource)
      rw [herase, List.countP_append]
      rw [List.countP_append, List.countP_cons, if_pos hfound] at hcount
      omega
    · have hnone : ∀ candidate ∈ history, ¬ (decide (candidate.source = source)) = true := by
        intro candidate hmem htrue
        exact hexists ⟨candidate, hmem, of_decide_eq_true htrue⟩
      have hzero : (history.countP fun candidate => candidate.source = source) = 0 :=
        List.countP_eq_zero.mpr hnone
      have hne : snapshot.source ≠ source := by
        rcases h with h | h
        · exact h
        · omega
      rw [List.eraseP_append_right _ (by simpa using hnone), List.eraseP_of_forall_not hnone,
        List.eraseP_cons_of_neg (by simpa using hne), List.eraseP_nil]
      exact ih (.inl hne)

/-- Unless it is there already, the release comes last, after what is left of the history. -/
lemma recordRelease_new (h : history.getLast? ≠ some snapshot) :
    ∃ excess, recordRelease history snapshot =
      (dropOldest snapshot.source excess history ++ [snapshot]).drop
        ((dropOldest snapshot.source excess history).length + 1 - maxReleaseHistory) := by
  refine ⟨(history.countP fun candidate => candidate.source = snapshot.source) + 1 -
    maxReleasesPerSource, ?_⟩
  rw [recordRelease, if_neg h]
  have hcount : ((history ++ [snapshot]).countP fun candidate =>
      candidate.source = snapshot.source) =
      (history.countP fun candidate => candidate.source = snapshot.source) + 1 := by
    simp
  have hmax : maxReleasesPerSource = 32 := rfl
  dsimp only
  rw [hcount, dropOldest_concat (.inr (by omega)), List.length_append, List.length_singleton]

lemma mem_of_mem_recordRelease (h : other ∈ recordRelease history snapshot) :
    other ∈ history ∨ other = snapshot := by
  by_cases hlast : history.getLast? = some snapshot
  · rw [recordRelease, if_pos hlast] at h
    exact .inl h
  · obtain ⟨excess, heq⟩ := @recordRelease_new history snapshot hlast
    rw [heq] at h
    rcases List.mem_append.mp (List.mem_of_mem_drop h) with h | h
    · exact .inl ((dropOldest_sublist _ _).subset h)
    · exact .inr (List.mem_singleton.mp h)

/-- The release that is recorded is the last one. -/
lemma getLast_recordRelease : (recordRelease history snapshot).getLast? = some snapshot := by
  by_cases hlast : history.getLast? = some snapshot
  · rw [recordRelease, if_pos hlast, hlast]
  · obtain ⟨excess, heq⟩ := @recordRelease_new history snapshot hlast
    have hmax : maxReleaseHistory = 1024 := rfl
    rw [heq, List.drop_append_of_le_length (by omega), List.getLast?_append]
    rfl

/-- A release of another source does not push the last release out. -/
lemma mem_recordRelease_of_last (h : history.getLast? = some other)
    (hne : other.source ≠ snapshot.source) : other ∈ recordRelease history snapshot := by
  have hlast : history.getLast? ≠ some snapshot := by
    intro heq
    rw [h] at heq
    exact hne (congrArg ReleaseSnapshot.source (Option.some.inj heq))
  obtain ⟨excess, heq⟩ := @recordRelease_new history snapshot hlast
  obtain ⟨front, rfl⟩ := List.getLast?_eq_some_iff.mp h
  have hmax : maxReleaseHistory = 1024 := rfl
  rw [heq, dropOldest_concat (.inl hne), List.length_append, List.length_singleton,
    List.append_assoc, List.drop_append_of_le_length (by omega)]
  simp

end Releases

section Kept

variable {store : PluginStore} {change next : Change}

/-- The release that a change records is the last one. -/
def Change.IsLast (history : List ReleaseSnapshot) : Change → Prop
  | put plugin recorded => recorded = true → history.getLast? = some plugin.snapshot
  | drop source => ∀ snapshot ∈ history, snapshot.source ≠ source

lemma isLast_apply : change.IsLast (store.apply change).releaseHistory := by
  cases change with
  | put plugin recorded =>
    rintro rfl
    exact getLast_recordRelease
  | drop source =>
    intro snapshot hmem
    simpa using (List.mem_filter.mp hmem).2

lemma hasReleases_of_isLast (h : change.IsLast store.releaseHistory) :
    change.HasReleases store.document := by
  cases change with
  | put plugin recorded => exact fun hrecorded => List.mem_of_getLast? (h hrecorded)
  | drop source => exact h

/-- The next change, of another source, leaves the releases of the last change. -/
lemma hasReleases_apply (h : change.IsLast store.releaseHistory)
    (hne : change.source ≠ next.source) : change.HasReleases (store.apply next).document := by
  cases change with
  | put plugin recorded =>
    intro hrecorded
    have hlast := h hrecorded
    cases next with
    | put other recorded' =>
      cases recorded' with
      | false => exact List.mem_of_getLast? hlast
      | true => exact mem_recordRelease_of_last hlast hne
    | drop source =>
      exact List.mem_filter.mpr ⟨List.mem_of_getLast? hlast, decide_eq_true hne⟩
  | drop source =>
    intro snapshot hmem
    cases next with
    | put other recorded' =>
      cases recorded' with
      | false => exact h snapshot hmem
      | true =>
        rcases mem_of_mem_recordRelease hmem with hmem | rfl
        · exact h snapshot hmem
        · exact Ne.symm hne
    | drop source' => exact h snapshot (List.mem_of_mem_filter hmem)

/-- The effect of a change is in the file that it wrote. -/
lemma inLock_apply {toml : LockToml} {bytes : List UInt8}
    (hencode : (store.apply change).encode toml = ok bytes) :
    change.InLock toml (some bytes) :=
  ⟨_, readDocument_encode hencode, hasEntry_apply, hasReleases_of_isLast isLast_apply⟩

/-- And it is in the file that a change of another source wrote on top of it. -/
lemma inLock_apply_apply {toml : LockToml} {bytes : List UInt8}
    (hne : change.source ≠ next.source)
    (hencode : ((store.apply change).apply next).encode toml = ok bytes) :
    change.InLock toml (some bytes) :=
  ⟨_, readDocument_encode hencode, (hasEntry_apply_iff hne).mpr hasEntry_apply,
    hasReleases_apply isLast_apply hne⟩

end Kept

end TouchBar.Packages
