import TouchBar.Policy.Grant

/-!
# The grant store

The decisions of the user are kept in a file, as a TOML document with the list of the
records.  A store in memory is a map from source and capability to the record.  What is
written is read back: the records of a store are valid, and no two of them have the same
source and capability.
-/

namespace TouchBar.Policy

open TouchBar.Rust Outcome

def storeSchemaVersion : ℕ := 1

def maxStoreBytes : ℕ := 1024 * 1024

inductive StoreError where
  | io (message : String)
  | parse (message : String)
  | encode (message : String)
  | invalid (message : String)
deriving DecidableEq, Repr

structure StoredDocument where
  schemaVersion : ℕ
  grants : List GrantRecord
deriving DecidableEq

/-- The TOML library: what it encodes, it decodes to the same document. -/
structure Toml where
  fromStr : String → Except String StoredDocument
  toStringPretty : StoredDocument → Except String String
  lossless : ∀ document text, toStringPretty document = .ok text → fromStr text = .ok document

/-- The key of a record. -/
def GrantRecord.key (record : GrantRecord) : GithubSource ×ₗ CapabilityId :=
  toLex (record.source, record.capability)

/-- Records that are valid, each under its own key. -/
structure GrantStore where
  records : BTreeMap (GithubSource ×ₗ CapabilityId) GrantRecord
  valid : ∀ key record, records.get key = some record →
    record.validate = ok () ∧ key = record.key

namespace GrantStore

def default : GrantStore where
  records := .empty
  valid := by simp

instance : DecidableEq GrantStore := fun s t =>
  decidable_of_iff (s.records = t.records) ⟨fun h => by cases s; cases t; simpa using h, congrArg _⟩

/-- `insert`, with the record that was replaced. -/
def insert (store : GrantStore) (record : GrantRecord) :
    Outcome StoreError (GrantStore × Option GrantRecord) :=
  match h : record.validate with
  | ok () =>
    ok (
      { records := store.records.insert record.key record
        valid := by
          intro key r hr
          rw [BTreeMap.get_insert] at hr
          split_ifs at hr with hkey
          · obtain rfl := Option.some.inj hr
            exact ⟨h, hkey⟩
          · exact store.valid key r hr },
      store.records.get record.key)
  | err message => err (.invalid message)
  | .panic => .panic

/-- `remove`, with the record that was removed. -/
def remove (store : GrantStore) (source : GithubSource) (capability : CapabilityId) :
    GrantStore × Option GrantRecord :=
  ({ records := store.records.remove (toLex (source, capability))
     valid := by
       intro key record h
       rw [BTreeMap.get_remove] at h
       split_ifs at h
       exact store.valid key record h },
    store.records.get (toLex (source, capability)))

/-! ## Documents -/

/-- The loop of `from_toml` over the records. -/
def insertAll (store : GrantStore) : List GrantRecord → Outcome StoreError GrantStore
  | [] => ok store
  | record :: records => do
    let (store, previous) ← store.insert record
    if previous.isSome then err (.invalid "duplicate source and capability decision")
    else store.insertAll records

def fromToml (toml : Toml) (source : String) : Outcome StoreError GrantStore :=
  match toml.fromStr source with
  | .error message => err (.parse message)
  | .ok document =>
    if document.schemaVersion ≠ storeSchemaVersion then
      err (.invalid ("unsupported schema version " ++ toString document.schemaVersion ++
        "; expected " ++ toString storeSchemaVersion))
    else default.insertAll document.grants

def toToml (toml : Toml) (store : GrantStore) : Outcome StoreError String :=
  match toml.toStringPretty ⟨storeSchemaVersion, store.records.values⟩ with
  | .error message => err (.encode message)
  | .ok text => ok text

/-- `load` on the content of the file, if there is one. -/
def loadContent (toml : Toml) : Option (List UInt8) → Outcome StoreError GrantStore
  | none => ok default
  | some bytes =>
    if maxStoreBytes < bytes.length then err (.invalid "grant store exceeds size limit")
    else
      match String.fromUTF8? ⟨bytes.toArray⟩ with
      | none => err (.io "stream did not contain valid UTF-8")
      | some source => fromToml toml source

/-- The bytes that `save_locked` writes. -/
def encodeContent (toml : Toml) (store : GrantStore) : Outcome StoreError (List UInt8) := do
  let encoded ← store.toToml toml
  if maxStoreBytes < Text.len encoded then err (.invalid "grant store exceeds size limit")
  else return Text.asBytes encoded

/-! ## The round trip -/

variable {store : GrantStore} {record : GrantRecord}

lemma ext_records {s t : GrantStore} (h : s.records = t.records) : s = t := by
  cases s
  cases t
  simpa using h

/-- Inserting a valid record. -/
lemma insert_eq_ok (h : record.validate = ok ()) :
    ∃ next, store.insert record = ok (next, store.records.get record.key) ∧
      next.records = store.records.insert record.key record := by
  unfold insert
  split
  · exact ⟨_, rfl, rfl⟩
  · rename_i message hvalidate
    simp [h] at hvalidate
  · rename_i hvalidate
    simp [h] at hvalidate

/-- Valid records with new, distinct keys are all inserted. -/
lemma insertAll_eq_ok {records : List GrantRecord}
    (hvalid : ∀ record ∈ records, record.validate = ok ())
    (hdistinct : (records.map GrantRecord.key).Nodup)
    (hnew : ∀ record ∈ records, store.records.get record.key = none) :
    ∃ next, store.insertAll records = ok next ∧
      next.records = (records.map fun record => (record.key, record)).foldl
        (fun map entry => map.insert entry.1 entry.2) store.records := by
  induction records generalizing store with
  | nil => exact ⟨store, rfl, rfl⟩
  | cons record records ih =>
    rw [List.map_cons, List.nodup_cons] at hdistinct
    obtain ⟨next, hinsert, hnext⟩ := @insert_eq_ok store record (hvalid record List.mem_cons_self)
    have hnone := hnew record List.mem_cons_self
    have hrest : ∀ r ∈ records, next.records.get r.key = none := by
      intro r hr
      have hne : r.key ≠ record.key := fun heq =>
        hdistinct.1 (heq ▸ List.mem_map_of_mem hr)
      rw [hnext, BTreeMap.get_insert, if_neg hne]
      exact hnew r (List.mem_cons_of_mem _ hr)
    obtain ⟨last, hlast, hrecords⟩ := ih
      (fun r hr => hvalid r (List.mem_cons_of_mem _ hr)) hdistinct.2 hrest
    refine ⟨last, ?_, ?_⟩
    · rw [insertAll, hinsert, ok_bind, hnone]
      exact hlast
    · rw [hrecords, hnext]
      rfl

/-- The records of a store make up the store again. -/
theorem insertAll_values (store : GrantStore) :
    default.insertAll store.records.values = ok store := by
  have hentries : (store.records.values.map fun record => (record.key, record)) =
      store.records.entries := by
    rw [BTreeMap.values, List.map_map]
    conv_rhs => rw [← List.map_id store.records.entries]
    refine List.map_congr_left fun entry hentry => ?_
    obtain ⟨key, record⟩ := entry
    obtain ⟨-, hkey⟩ := store.valid key record (BTreeMap.get_eq_some_iff.mpr hentry)
    simp [hkey]
  have hkeys : store.records.values.map GrantRecord.key = store.records.keys := by
    have hfst := congrArg (List.map Prod.fst) hentries
    rw [List.map_map] at hfst
    exact hfst
  have hvalid : ∀ record ∈ store.records.values, record.validate = ok () := by
    intro record hrecord
    obtain ⟨key, hget⟩ := BTreeMap.mem_values_iff.mp hrecord
    exact (store.valid key record hget).1
  obtain ⟨next, hnext, hrecords⟩ := @insertAll_eq_ok default _ hvalid
    (hkeys ▸ BTreeMap.keys_nodup _) (by simp [default])
  rw [hentries] at hrecords
  have hsame : next.records = store.records := by
    refine BTreeMap.eq_of_get_eq fun key => ?_
    ext record
    rw [hrecords, BTreeMap.get_foldl_insert (BTreeMap.keys_nodup _), BTreeMap.get_eq_some_iff]
    simp [default, BTreeMap.get_eq_some_iff]
  rw [hnext, ext_records hsame]

/-- What is written is read back. -/
theorem loadContent_encodeContent {toml : Toml} {bytes : List UInt8}
    (h : store.encodeContent toml = ok bytes) : loadContent toml (some bytes) = ok store := by
  rw [encodeContent, bind_eq_ok] at h
  obtain ⟨encoded, htoml, h⟩ := h
  split_ifs at h with hsize
  obtain rfl := ok.inj h
  unfold toToml at htoml
  split at htoml
  · simp at htoml
  · rename_i text htext
    obtain rfl := ok.inj htoml
    have hread := toml.lossless _ _ htext
    rw [loadContent, if_neg (by simpa using hsize), Text.fromUTF8?_eq_some.mpr rfl]
    dsimp only
    rw [fromToml, hread]
    exact insertAll_values store

end GrantStore

end TouchBar.Policy
