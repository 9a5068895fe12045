import TouchBar.Lib.Runs
import TouchBar.Policy.Store

/-!
# Transactions on the grant store

Processes change the grant store with calls that validate their records, take a lock, load
the file, change the store in memory, write it to a temporary file and rename that file over
the old one.  Here every system call of such a call is a step of its own, which may fail, and
the process may crash before any step.  In every run the file decodes to what the calls that
reached their rename give when they are applied one after another, and a call that fails
before its rename never touches the file.
-/

namespace TouchBar.Policy

open TouchBar.Rust TouchBar.Lib Outcome

/-- A call of `update_record`, `update_records` or `remove_record`. -/
inductive StoreCall where
  | updateRecord (record : GrantRecord)
  | updateRecords (records : List GrantRecord)
  | removeRecord (source : GithubSource) (capability : CapabilityId)

/-- What a call returns. -/
inductive StoreAnswer where
  | one (previous : Option GrantRecord)
  | batch (previous : List (Option GrantRecord))
deriving DecidableEq

namespace GrantStore

/-- The loop of `update_records` over the records. -/
def insertEach (store : GrantStore) : List GrantRecord →
    Outcome StoreError (GrantStore × List (Option GrantRecord))
  | [] => ok (store, [])
  | record :: records => do
    let (store, replaced) ← store.insert record
    let (store, previous) ← store.insertEach records
    return (store, replaced :: previous)

end GrantStore

namespace StoreCall

/-- The records that are validated before anything else. -/
def records : StoreCall → List GrantRecord
  | updateRecord record => [record]
  | updateRecords records => records
  | removeRecord _ _ => []

/-- The change of the loaded store, with the records that were replaced or removed. -/
def change (store : GrantStore) :
    StoreCall → Outcome StoreError (GrantStore × List (Option GrantRecord))
  | updateRecord record => store.insertEach [record]
  | updateRecords records => store.insertEach records
  | removeRecord source capability =>
    ok ((store.remove source capability).1, [(store.remove source capability).2])

/-- The value returned; `update_record` expects one result from its batch of one. -/
def answer (previous : List (Option GrantRecord)) : StoreCall → Option StoreAnswer
  | updateRecord _ => previous.head?.map .one
  | updateRecords _ => some (.batch previous)
  | removeRecord _ _ => previous.head?.map .one

end StoreCall

/-! ## The steps of a call -/

/-- What a call was doing when it failed. -/
inductive Stage where
  | validation
  | directory
  | lock
  | load
  | change
  | inspection
  | encoding
  | temporary
  | permissions
  | write
  | sync
  | rename
  /-- Opening the directory, or its `sync_all`, after the rename. -/
  | directorySync
deriving DecidableEq, Repr

/-- How far a call is. -/
inductive Phase where
  | entered
  | validated
  | prepared
  | lockOpened
  | locked
  | opened (content : Option (List UInt8))
  | loaded (store : GrantStore)
  | changed (store : GrantStore) (previous : List (Option GrantRecord))
  | inspected (store : GrantStore) (previous : List (Option GrantRecord))
  | encoded (bytes : List UInt8) (previous : List (Option GrantRecord))
  | created (bytes : List UInt8) (previous : List (Option GrantRecord))
  | writing (content bytes : List UInt8) (previous : List (Option GrantRecord))
  | written (content : List UInt8) (previous : List (Option GrantRecord))
  | synced (content : List UInt8) (previous : List (Option GrantRecord))
  | renamed (previous : List (Option GrantRecord))
  | directoryOpened (previous : List (Option GrantRecord))
  | finished (answer : StoreAnswer)
  | failed (stage : Stage) (error : StoreError)
  | panicked
  | crashed

namespace Phase

/-- The lock is held from `flock` to the return. -/
def holdsLock : Phase → Bool
  | locked | opened _ | loaded _ | changed _ _ | inspected _ _ | encoded _ _ | created _ _
  | writing _ _ _ | written _ _ | synced _ _ | renamed _ | directoryOpened _ => true
  | _ => false

/-- The next step is `flock`. -/
def takesLock : Phase → Bool
  | lockOpened => true
  | _ => false

def isOver : Phase → Bool
  | finished _ | failed _ _ | panicked | crashed => true
  | _ => false

/-- The stage of the system call that comes next, if one does. -/
def stage : Phase → Option Stage
  | validated => some .directory
  | prepared | lockOpened => some .lock
  | locked | opened _ => some .load
  | changed _ _ => some .inspection
  | encoded _ _ => some .temporary
  | created _ _ => some .permissions
  | writing _ _ _ => some .write
  | written _ _ => some .sync
  | synced _ _ => some .rename
  | renamed _ | directoryOpened _ => some .directorySync
  | _ => none

/-- The phase after a result, and an error ends the call. -/
def afterResult {α : Type} (result : Outcome StoreError α) (stage : Stage) (next : α → Phase) :
    Phase :=
  match result with
  | ok a => next a
  | err error => failed stage error
  | .panic => panicked

/-- The next step, when no system call fails.  `file` is what is on disk, `n` the number of
bytes a `write` takes. -/
def next (toml : Toml) (call : StoreCall) (file : Option (List UInt8)) (n : ℕ) : Phase → Phase
  | entered =>
    afterResult ((firstError GrantRecord.validate call.records).mapErr .invalid) .validation
      fun _ => validated
  | validated => prepared
  | prepared => lockOpened
  | lockOpened => locked
  | locked => opened file
  | opened content => afterResult (GrantStore.loadContent toml content) .load loaded
  | loaded store =>
    afterResult (call.change store) .change fun changes => changed changes.1 changes.2
  | changed store previous => inspected store previous
  | inspected store previous =>
    afterResult (store.encodeContent toml) .encoding fun bytes => encoded bytes previous
  | encoded bytes previous => created bytes previous
  | created bytes previous => writing [] bytes previous
  | writing content bytes previous =>
    if content.length = bytes.length then written content previous
    else if n = 0 then failed .write (.io "failed to write whole buffer")
    else writing (content ++ (bytes.drop content.length).take n) bytes previous
  | written content previous => synced content previous
  | synced _ previous => renamed previous
  | renamed previous => directoryOpened previous
  | directoryOpened previous =>
    match call.answer previous with
    | some answer => finished answer
    | none => panicked
  | finished answer => finished answer
  | failed stage error => failed stage error
  | panicked => panicked
  | crashed => crashed

/-- The content that the next step renames over the file. -/
def renames : Phase → Option (List UInt8)
  | synced content _ => some content
  | _ => none

end Phase

/-- What the environment does to a call. -/
inductive Move where
  | proceed (n : ℕ)
  | fails (error : StoreError)
  | crash

/-- The file, the lock and the calls.  `order` records the calls that reached their rename. -/
structure World where
  file : Option (List UInt8)
  lock : Option ℕ
  phases : ℕ → Phase
  order : List ℕ

namespace World

def start (file : Option (List UInt8)) : World where
  file := file
  lock := none
  phases _ := .entered
  order := []

/-- A call comes to a phase; the lock is dropped when it returns or dies. -/
def enter (world : World) (i : ℕ) (phase : Phase) : World where
  file := world.file
  lock := if phase.holdsLock then some i else if world.lock = some i then none else world.lock
  phases := Function.update world.phases i phase
  order := world.order

/-- `persist` renames the temporary file over the store. -/
def rename (world : World) (i : ℕ) : World :=
  match (world.phases i).renames with
  | some content => { world with
      file := some content
      order := world.order ++ [i] }
  | none => world

def step (toml : Toml) (calls : ℕ → StoreCall) (world : World) (event : ℕ × Move) : World :=
  let i := event.1
  match event.2 with
  | .proceed n =>
    -- `flock` waits until no other call holds the lock
    if (world.phases i).takesLock && world.lock.isSome then world
    else
      (world.rename i).enter i ((world.phases i).next toml (calls i) world.file n)
  | .fails error =>
    match (world.phases i).stage with
    | some stage => world.enter i (.failed stage error)
    | none => world
  | .crash => if (world.phases i).isOver then world else world.enter i .crashed

end World

/-! ## One call after another -/

/-- The records of a store. -/
abbrev Records : Type := BTreeMap (GithubSource ×ₗ CapabilityId) GrantRecord

/-- Insert a batch, with what each record replaces. -/
def replaceEach (records : Records) : List GrantRecord → Records × List (Option GrantRecord)
  | [] => (records, [])
  | record :: rest =>
    let result := replaceEach (records.insert record.key record) rest
    (result.1, records.get record.key :: result.2)

/-- What a call does to the records, at once. -/
def StoreCall.effect (records : Records) : StoreCall → Records
  | updateRecord record => records.insert record.key record
  | updateRecords batch => (replaceEach records batch).1
  | removeRecord source capability => records.remove (toLex (source, capability))

/-- What a call returns. -/
def StoreCall.reply (records : Records) : StoreCall → StoreAnswer
  | updateRecord record => .one (records.get record.key)
  | updateRecords batch => .batch (replaceEach records batch).2
  | removeRecord source capability => .one (records.get (toLex (source, capability)))

/-- The records after calls, one after another. -/
def serial (calls : ℕ → StoreCall) (records : Records) (order : List ℕ) : Records :=
  run (fun records i => (calls i).effect records) records order

lemma serial_concat {calls : ℕ → StoreCall} {records : Records} {order : List ℕ} {i : ℕ} :
    serial calls records (order ++ [i]) = (calls i).effect (serial calls records order) := by
  rw [serial, run_append]
  rfl

variable {store next : GrantStore} {previous : List (Option GrantRecord)} {call : StoreCall}

lemma firstError_eq_ok {α : Type} {check : α → Outcome String Unit} {l : List α} :
    firstError check l = ok () ↔ ∀ a ∈ l, check a = ok () := by
  induction l with
  | nil => simp [firstError]
  | cons a l ih =>
    simp only [firstError, bind_eq_ok, List.forall_mem_cons, ih]
    constructor
    · rintro ⟨u, h⟩
      exact h
    · intro h
      exact ⟨(), h⟩

lemma firstError_ne_panic {α : Type} {check : α → Outcome String Unit} {l : List α}
    (h : ∀ a, check a ≠ .panic) : firstError check l ≠ .panic := by
  induction l with
  | nil => simp [firstError]
  | cons a l ih => simp [firstError, bind_eq_panic, h, ih]

lemma require_ne_panic (condition : Bool) (message : String) :
    require condition message ≠ .panic := by
  unfold require
  split_ifs <;> simp

lemma validateBindings_ne_panic (record : GrantRecord) : record.validateBindings ≠ .panic := by
  have hmount : ∀ binding, FilesystemMountBinding.validate binding ≠ .panic := by
    rintro (root | ⟨directory, relative⟩) <;> simp only [FilesystemMountBinding.validate] <;>
      split_ifs <;> simp
  have hsecret : ∀ binding, SecretBinding.validate binding ≠ .panic := by
    rintro ⟨objectPath⟩
    simp only [SecretBinding.validate]
    split_ifs <;> simp
  have hendpoint : ∀ binding, LocalEndpointBinding.validate binding ≠ .panic := by
    rintro ⟨path⟩
    simp only [LocalEndpointBinding.validate]
    split_ifs <;> simp
  have hclipboard : ∀ binding, ClipboardBinding.validate binding ≠ .panic := by
    rintro ⟨socket⟩
    simp only [ClipboardBinding.validate]
    split_ifs <;> simp
  unfold GrantRecord.validateBindings
  split
  · exact require_ne_panic _ _
  · simp only [ne_eq, bind_eq_panic, require_ne_panic, firstError_ne_panic hmount,
      firstError_ne_panic hsecret, firstError_ne_panic hendpoint, firstError_ne_panic hclipboard,
      false_or, and_false, exists_false, not_false_eq_true]

lemma validate_ne_panic (record : GrantRecord) : record.validate ≠ .panic := by
  have hdigest : validateDigest record.approvedDigest ≠ .panic := by
    unfold validateDigest
    split
    · simp
    · split_ifs <;> simp
  have hscope : validateCapabilityScope record.capability record.approvedScope ≠ .panic := by
    unfold validateCapabilityScope
    dsimp only
    split_ifs <;> simp
  unfold GrantRecord.validate
  cases hresult : validateCapabilityScope record.capability record.approvedScope with
  | panic => exact absurd hresult hscope
  | _ => simp [bind_eq_panic, require_ne_panic, hdigest, validateBindings_ne_panic]

lemma insertEach_eq_ok {records : List GrantRecord}
    (hvalid : ∀ record ∈ records, record.validate = ok ()) :
    ∃ next, store.insertEach records = ok (next, (replaceEach store.records records).2) ∧
      next.records = (replaceEach store.records records).1 := by
  induction records generalizing store with
  | nil => exact ⟨store, rfl, rfl⟩
  | cons record records ih =>
    obtain ⟨middle, hinsert, hmiddle⟩ :=
      @GrantStore.insert_eq_ok store record (hvalid record List.mem_cons_self)
    obtain ⟨last, hlast, hrecords⟩ :=
      @ih middle fun r hr => hvalid r (List.mem_cons_of_mem _ hr)
    rw [hmiddle] at hlast hrecords
    refine ⟨last, ?_, hrecords⟩
    rw [GrantStore.insertEach, hinsert, ok_bind]
    dsimp only
    rw [hlast]
    rfl

/-- A call with valid records changes a store as it should, and answers with what was there. -/
lemma change_eq_ok (hvalid : ∀ record ∈ call.records, record.validate = ok ()) :
    ∃ next previous, call.change store = ok (next, previous) ∧
      next.records = call.effect store.records ∧
      call.answer previous = some (call.reply store.records) := by
  cases call with
  | updateRecord record =>
    obtain ⟨next, hnext, hrecords⟩ := @insertEach_eq_ok store [record] hvalid
    exact ⟨next, _, hnext, hrecords, rfl⟩
  | updateRecords records =>
    obtain ⟨next, hnext, hrecords⟩ := @insertEach_eq_ok store records hvalid
    exact ⟨next, _, hnext, hrecords, rfl⟩
  | removeRecord source capability => exact ⟨_, _, rfl, rfl, rfl⟩

/-! ## Which calls reached their rename -/

section Order

variable {toml : Toml} {calls : ℕ → StoreCall} {world : World} {i : ℕ} {n : ℕ}
  {file : Option (List UInt8)} {phase : Phase}

/-- The rename of the call is still to come, or will not come. -/
def Phase.isBefore : Phase → Bool
  | renamed _ | directoryOpened _ | finished _ | panicked | crashed => false
  | failed stage _ => stage != .directorySync
  | _ => true

/-- Every call reaches its rename at most once, and not while it is before it. -/
structure Ordered (world : World) : Prop where
  nodup : world.order.Nodup
  fresh : ∀ i, (world.phases i).isBefore = true → i ∉ world.order

/-- What a step does. -/
lemma step_cases (move : Move) :
    world.step toml calls (i, move) = world ∨
    (∃ n, move = .proceed n ∧ ((world.phases i).takesLock = true → world.lock = none) ∧
      world.step toml calls (i, move) =
        (world.rename i).enter i ((world.phases i).next toml (calls i) world.file n)) ∨
    (∃ stage error, (world.phases i).stage = some stage ∧
      world.step toml calls (i, move) = world.enter i (.failed stage error)) ∨
    world.step toml calls (i, move) = world.enter i .crashed := by
  cases move with
  | proceed n =>
    by_cases hblocked : ((world.phases i).takesLock && world.lock.isSome) = true
    · exact .inl (if_pos hblocked)
    · refine .inr (.inl ⟨n, rfl, fun htakes => ?_, if_neg hblocked⟩)
      rw [htakes, Bool.true_and, Option.not_isSome_iff_eq_none] at hblocked
      exact hblocked
  | fails error =>
    cases hstage : (world.phases i).stage with
    | none => exact .inl (by simp only [World.step, hstage])
    | some stage => exact .inr (.inr (.inl ⟨stage, error, rfl, by simp only [World.step, hstage]⟩))
  | crash =>
    by_cases hover : (world.phases i).isOver = true
    · exact .inl (if_pos hover)
    · exact .inr (.inr (.inr (if_neg hover)))

lemma rename_order (world : World) (i : ℕ) :
    (world.rename i).order =
      world.order ++ ((world.phases i).renames.map fun _ => i).toList := by
  unfold World.rename
  cases (world.phases i).renames <;> simp

@[simp] lemma rename_phases (world : World) (i : ℕ) : (world.rename i).phases = world.phases := by
  unfold World.rename
  cases (world.phases i).renames <;> rfl

lemma eq_synced {content : List UInt8} (h : phase.renames = some content) :
    ∃ previous, phase = .synced content previous := by
  cases phase <;> simp_all [Phase.renames]

/-- A step that leaves a call before its rename was not the rename. -/
lemma isBefore_of_next (h : (phase.next toml call file n).isBefore = true) :
    phase.isBefore = true ∧ phase.renames = none := by
  cases phase with
  | renamed previous => simp [Phase.next, Phase.isBefore] at h
  | directoryOpened previous =>
    unfold Phase.next at h
    cases hanswer : call.answer previous <;> simp [hanswer, Phase.isBefore] at h
  | synced content previous => simp [Phase.next, Phase.isBefore] at h
  | _ => simp_all [Phase.next, Phase.isBefore, Phase.renames]

lemma isBefore_of_stage {stage : Stage} (hstage : phase.stage = some stage)
    (h : stage ≠ .directorySync) : phase.isBefore = true := by
  cases phase <;> simp_all [Phase.stage, Phase.isBefore]

lemma Ordered.enter (h : Ordered world) (hphase : phase.isBefore = true → i ∉ world.order) :
    Ordered (world.enter i phase) := by
  refine ⟨h.nodup, fun j hj => ?_⟩
  change (Function.update world.phases i phase j).isBefore = true at hj
  by_cases hji : j = i
  · subst hji
    rw [Function.update_self] at hj
    exact hphase hj
  · rw [Function.update_of_ne hji] at hj
    exact h.fresh j hj

lemma Ordered.step (h : Ordered world) (event : ℕ × Move) :
    Ordered (world.step toml calls event) := by
  obtain ⟨i, move⟩ := event
  rcases @step_cases toml calls world i move with hsame | ⟨n, -, -, hnext⟩ |
    ⟨stage, error, hstage, hfail⟩ | hcrash
  · rwa [hsame]
  · rw [hnext]
    cases hrenames : (world.phases i).renames with
    | none =>
      have hrename : world.rename i = world := by simp [World.rename, hrenames]
      rw [hrename]
      exact h.enter fun hbefore => h.fresh i (isBefore_of_next hbefore).1
    | some content =>
      have hfresh : i ∉ world.order := by
        obtain ⟨previous, hsynced⟩ := eq_synced hrenames
        exact h.fresh i (by rw [hsynced]; rfl)
      have horder : (world.rename i).order = world.order ++ [i] := by
        rw [rename_order, hrenames]
        rfl
      constructor
      · change (world.rename i).order.Nodup
        rw [horder]
        exact List.nodup_append.2 ⟨h.nodup, List.nodup_singleton i, by
          intro a ha b hb hab
          rw [List.mem_singleton] at hb
          exact hfresh (hb ▸ hab ▸ ha)⟩
      · intro j hj
        change (Function.update (world.rename i).phases i _ j).isBefore = true at hj
        change j ∉ (world.rename i).order
        by_cases hji : j = i
        · subst hji
          rw [Function.update_self] at hj
          rw [(isBefore_of_next hj).2] at hrenames
          simp at hrenames
        · rw [Function.update_of_ne hji, rename_phases] at hj
          rw [horder, List.mem_append, List.mem_singleton]
          rintro (hmem | hmem)
          · exact h.fresh j hj hmem
          · exact hji hmem
  · rw [hfail]
    refine h.enter fun hbefore => h.fresh i (isBefore_of_stage hstage ?_)
    simpa [Phase.isBefore] using hbefore
  · rw [hcrash]
    exact h.enter fun hbefore => by simp [Phase.isBefore] at hbefore

lemma ordered_start : Ordered (World.start file) where
  nodup := List.nodup_nil
  fresh := by simp [World.start]

lemma ordered_run (moves : List (ℕ × Move)) :
    Ordered (run (World.step toml calls) (World.start file) moves) :=
  run_invariant (fun _ event h => h.step event) ordered_start moves

end Order

/-! ## What a call knows of the file -/

section Serial

variable {toml : Toml} {calls : ℕ → StoreCall} {records : Records} {world : World} {i j : ℕ}
  {file : Option (List UInt8)} {order more : List ℕ} {phase : Phase} {bytes : List UInt8}

/-- The file decodes to the records that calls give, one after another. -/
def Decodes (toml : Toml) (calls : ℕ → StoreCall) (records : Records)
    (file : Option (List UInt8)) (order : List ℕ) : Prop :=
  ∃ store, GrantStore.loadContent toml file = ok store ∧
    store.records = serial calls records order

/-- What a call knows in a phase: while it holds the lock, of the file that it read; after its
rename, of its place in the order. -/
def Knows (toml : Toml) (calls : ℕ → StoreCall) (records : Records)
    (file : Option (List UInt8)) (order : List ℕ) (i : ℕ) : Phase → Prop
  | .entered => True
  | .validated | .prepared | .lockOpened | .locked =>
    ∀ record ∈ (calls i).records, record.validate = ok ()
  | .opened content =>
    (∀ record ∈ (calls i).records, record.validate = ok ()) ∧ content = file
  | .loaded store =>
    (∀ record ∈ (calls i).records, record.validate = ok ()) ∧
      store.records = serial calls records order
  | .changed store previous | .inspected store previous =>
    store.records = serial calls records (order ++ [i]) ∧
      (calls i).answer previous = some ((calls i).reply (serial calls records order))
  | .encoded bytes previous | .created bytes previous =>
    Decodes toml calls records (some bytes) (order ++ [i]) ∧
      (calls i).answer previous = some ((calls i).reply (serial calls records order))
  | .writing content bytes previous =>
    content = bytes.take content.length ∧
    Decodes toml calls records (some bytes) (order ++ [i]) ∧
      (calls i).answer previous = some ((calls i).reply (serial calls records order))
  | .written content previous | .synced content previous =>
    Decodes toml calls records (some content) (order ++ [i]) ∧
      (calls i).answer previous = some ((calls i).reply (serial calls records order))
  | .renamed previous | .directoryOpened previous =>
    ∃ front back, order = front ++ i :: back ∧
      (calls i).answer previous = some ((calls i).reply (serial calls records front))
  | .finished answer =>
    ∃ front back, order = front ++ i :: back ∧
      answer = (calls i).reply (serial calls records front)
  | .failed _ _ | .crashed => True
  | .panicked => False

/-- A call that does not hold the lock knows nothing that another call's rename changes. -/
lemma knows_of_rename (hlock : phase.holdsLock = false)
    (h : Knows toml calls records file order i phase) (file' : Option (List UInt8))
    (more : List ℕ) : Knows toml calls records file' (order ++ more) i phase := by
  cases phase with
  | finished answer =>
    obtain ⟨front, back, horder, hanswer⟩ := h
    exact ⟨front, back ++ more, by rw [horder]; simp, hanswer⟩
  | _ => first | exact h | cases hlock

lemma encodeContent_ne_panic {store : GrantStore} : store.encodeContent toml ≠ .panic := by
  unfold GrantStore.encodeContent GrantStore.toToml
  cases toml.toStringPretty ⟨storeSchemaVersion, store.records.values⟩ with
  | error message => simp
  | ok text =>
    dsimp only
    rw [ok_bind]
    split_ifs <;> simp

/-- The content so far is the front of the bytes to write, also after one more `write`. -/
lemma take_append_take {content : List UInt8} (h : content = bytes.take content.length) (n : ℕ) :
    content ++ (bytes.drop content.length).take n =
      bytes.take (content ++ (bytes.drop content.length).take n).length := by
  have hprefix : content ++ (bytes.drop content.length).take n <+: bytes := by
    refine ⟨(bytes.drop content.length).drop n, ?_⟩
    rw [List.append_assoc, List.take_append_drop]
    conv_lhs => rw [h, List.length_take]
    rw [← List.length_take, ← h]
    conv_lhs =>
      arg 1
      rw [h]
    exact List.take_append_drop _ _
  exact List.prefix_iff_eq_take.1 hprefix

/-- A step of a call that is not the rename keeps what it knows. -/
lemma knows_next (h : Knows toml calls records file order i phase)
    (hfile : Decodes toml calls records file order) (hrenames : phase.renames = none) (n : ℕ) :
    Knows toml calls records file order i (phase.next toml (calls i) file n) := by
  cases phase with
  | entered =>
    simp only [Phase.next, Phase.afterResult]
    cases hvalidate : firstError GrantRecord.validate (calls i).records with
    | ok u => exact firstError_eq_ok.1 hvalidate
    | err message => trivial
    | panic => exact absurd hvalidate (firstError_ne_panic validate_ne_panic)
  | locked => exact ⟨h, rfl⟩
  | opened content =>
    obtain ⟨hvalid, rfl⟩ := h
    obtain ⟨store, hload, hstore⟩ := hfile
    simp only [Phase.next, Phase.afterResult, hload]
    exact ⟨hvalid, hstore⟩
  | loaded store =>
    obtain ⟨hvalid, hstore⟩ := h
    obtain ⟨next, previous, hchange, hnext, hanswer⟩ := @change_eq_ok store (calls i) hvalid
    simp only [Phase.next, Phase.afterResult, hchange]
    rw [hstore] at hnext hanswer
    exact ⟨hnext.trans serial_concat.symm, hanswer⟩
  | inspected store previous =>
    obtain ⟨hstore, hanswer⟩ := h
    simp only [Phase.next, Phase.afterResult]
    cases hencode : store.encodeContent toml with
    | ok bytes => exact ⟨⟨store, GrantStore.loadContent_encodeContent hencode, hstore⟩, hanswer⟩
    | err error => trivial
    | panic => exact absurd hencode encodeContent_ne_panic
  | created bytes previous => exact ⟨rfl, h⟩
  | writing content bytes previous =>
    obtain ⟨hcontent, hdecodes, hanswer⟩ := h
    simp only [Phase.next]
    split_ifs with hlength hzero
    · -- `write_all` is through: the temporary file has all the bytes
      rw [hlength, List.take_length] at hcontent
      subst hcontent
      exact ⟨hdecodes, hanswer⟩
    · trivial
    · exact ⟨take_append_take hcontent n, hdecodes, hanswer⟩
  | synced content previous => simp [Phase.renames] at hrenames
  | directoryOpened previous =>
    obtain ⟨front, back, horder, hanswer⟩ := h
    simp only [Phase.next, hanswer]
    exact ⟨front, back, horder, rfl⟩
  | _ => exact h

/-! ## All calls together -/

/-- One call at most holds the lock, the file decodes, and every call knows what it should. -/
structure Coherent (toml : Toml) (calls : ℕ → StoreCall) (records : Records)
    (world : World) : Prop where
  lock : ∀ i, (world.phases i).holdsLock = true ↔ world.lock = some i
  file : Decodes toml calls records world.file world.order
  knows : ∀ i, Knows toml calls records world.file world.order i (world.phases i)

/-- A call that holds the lock next holds it already, or takes it now. -/
lemma holdsLock_of_next {n : ℕ} (hrunning : phase.holdsLock = false)
    (htakes : phase.takesLock = false) {call : StoreCall} :
    (phase.next toml call file n).holdsLock = false := by
  cases phase with
  | entered =>
    simp only [Phase.next, Phase.afterResult]
    cases (firstError GrantRecord.validate call.records).mapErr StoreError.invalid <;> rfl
  | lockOpened => simp [Phase.takesLock] at htakes
  | validated => rfl
  | prepared => rfl
  | _ => first | exact hrunning | cases hrunning

/-- Entering a phase moves the lock along, when nobody else has it. -/
lemma lock_enter (h : ∀ i, (world.phases i).holdsLock = true ↔ world.lock = some i)
    (hfree : phase.holdsLock = true → world.lock = none ∨ world.lock = some i) (j : ℕ) :
    ((world.enter i phase).phases j).holdsLock = true ↔ (world.enter i phase).lock = some j := by
  simp only [World.enter]
  by_cases hji : j = i
  · subst hji
    rw [Function.update_self]
    by_cases hholds : phase.holdsLock = true
    · simp [hholds]
    · rw [if_neg hholds]
      split_ifs with hlock
      · simpa using hholds
      · simp [hholds, hlock]
  · rw [Function.update_of_ne hji, h j]
    by_cases hholds : phase.holdsLock = true
    · rw [if_pos hholds]
      rcases hfree hholds with hlock | hlock
      · rw [hlock]
        simp [Ne.symm hji]
      · rw [hlock]
    · rw [if_neg hholds]
      split_ifs with hlock
      · rw [hlock]
        simp [Ne.symm hji]
      · rfl

/-- Entering a phase where the call knows what it should. -/
lemma Coherent.enter (h : Coherent toml calls records world)
    (hfree : phase.holdsLock = true → world.lock = none ∨ world.lock = some i)
    (hknows : Knows toml calls records world.file world.order i phase) :
    Coherent toml calls records (world.enter i phase) where
  lock := lock_enter h.lock hfree
  file := h.file
  knows := by
    intro j
    change Knows toml calls records world.file world.order j
      (Function.update world.phases i phase j)
    by_cases hji : j = i
    · subst hji
      rwa [Function.update_self]
    · rw [Function.update_of_ne hji]
      exact h.knows j

/-- The rename of a call. -/
lemma Coherent.rename (h : Coherent toml calls records world) {content : List UInt8}
    {previous : List (Option GrantRecord)} (hsynced : world.phases i = .synced content previous) :
    Coherent toml calls records ((world.rename i).enter i (.renamed previous)) := by
  have hrename : world.rename i = { world with
      file := some content
      order := world.order ++ [i] } := by
    simp [World.rename, hsynced, Phase.renames]
  have hmine := h.knows i
  rw [hsynced] at hmine
  obtain ⟨hdecodes, hanswer⟩ := hmine
  have hlock : world.lock = some i := (h.lock i).1 (by rw [hsynced]; rfl)
  rw [hrename]
  constructor
  · exact @lock_enter { world with
      file := some content
      order := world.order ++ [i] } i _ h.lock fun _ => .inr hlock
  · exact hdecodes
  · intro j
    change Knows toml calls records (some content) (world.order ++ [i]) j
      (Function.update world.phases i (.renamed previous) j)
    by_cases hji : j = i
    · subst hji
      rw [Function.update_self]
      exact ⟨world.order, [], rfl, hanswer⟩
    · rw [Function.update_of_ne hji]
      -- the other calls are not between their `flock` and their return
      have hother : (world.phases j).holdsLock = false := by
        rw [Bool.eq_false_iff]
        intro hholds
        rw [(h.lock j), hlock] at hholds
        exact hji (Option.some.inj hholds).symm
      exact knows_of_rename hother (h.knows j) _ _

lemma Coherent.step (h : Coherent toml calls records world) (event : ℕ × Move) :
    Coherent toml calls records (world.step toml calls event) := by
  obtain ⟨i, move⟩ := event
  rcases @step_cases toml calls world i move with hsame | ⟨n, -, htakes, hnext⟩ |
    ⟨stage, error, -, hfail⟩ | hcrash
  · rwa [hsame]
  · rw [hnext]
    cases hrenames : (world.phases i).renames with
    | none =>
      have hrename : world.rename i = world := by simp [World.rename, hrenames]
      rw [hrename]
      refine h.enter (fun hholds => ?_) (knows_next (h.knows i) h.file hrenames n)
      cases hrunning : (world.phases i).holdsLock with
      | true => exact .inr ((h.lock i).1 hrunning)
      | false =>
        refine .inl (htakes ?_)
        by_contra hnot
        rw [Bool.not_eq_true] at hnot
        rw [holdsLock_of_next hrunning hnot] at hholds
        cases hholds
    | some content =>
      obtain ⟨previous, hsynced⟩ := eq_synced hrenames
      rw [hsynced]
      exact h.rename hsynced
  · rw [hfail]
    exact h.enter (fun hholds => by cases hholds) trivial
  · rw [hcrash]
    exact h.enter (fun hholds => by cases hholds) trivial

lemma coherent_start {store : GrantStore} (h : GrantStore.loadContent toml file = ok store) :
    Coherent toml calls store.records (World.start file) where
  lock := by simp [World.start, Phase.holdsLock]
  file := ⟨store, h, rfl⟩
  knows _ := trivial

/-! ## Every run -/

/-- Only a rename adds to the order, and only a rename changes the file. -/
lemma order_step (move : Move) :
    (world.step toml calls (i, move)).order = world.order ∧
        (world.step toml calls (i, move)).file = world.file ∨
      (world.step toml calls (i, move)).order = world.order ++ [i] ∧
        ∃ n content previous, move = .proceed n ∧ world.phases i = .synced content previous := by
  rcases @step_cases toml calls world i move with hsame | ⟨n, hmove, -, hnext⟩ |
    ⟨stage, error, -, hfail⟩ | hcrash
  · rw [hsame]
    exact .inl ⟨rfl, rfl⟩
  · rw [hnext]
    cases hrenames : (world.phases i).renames with
    | none =>
      have hrename : world.rename i = world := by simp [World.rename, hrenames]
      rw [hrename]
      exact .inl ⟨rfl, rfl⟩
    | some content =>
      obtain ⟨previous, hsynced⟩ := eq_synced hrenames
      refine .inr ⟨?_, n, content, previous, hmove, hsynced⟩
      change (world.rename i).order = _
      rw [rename_order, hrenames]
      rfl
  · rw [hfail]
    exact .inl ⟨rfl, rfl⟩
  · rw [hcrash]
    exact .inl ⟨rfl, rfl⟩

lemma order_prefix_run (moves : List (ℕ × Move)) :
    world.order <+: (run (World.step toml calls) world moves).order := by
  refine @run_invariant _ _ (World.step toml calls) (fun w => world.order <+: w.order) ?_ _
    List.prefix_rfl moves
  rintro w ⟨j, move⟩ h
  rcases @order_step toml calls w j move with ⟨hsame, -⟩ | ⟨happend, -⟩
  · rwa [hsame]
  · rw [happend]
    exact h.trans (List.prefix_append _ _)

/-- A call reached its rename in a run: some step of the run was its successful `persist`. -/
def ReachedRename (toml : Toml) (calls : ℕ → StoreCall) (start : Option (List UInt8))
    (moves : List (ℕ × Move)) (i : ℕ) : Prop :=
  ∃ front n back, moves = front ++ (i, .proceed n) :: back ∧
    ∃ content previous,
      (run (World.step toml calls) (World.start start) front).phases i = .synced content previous

/-- The order has the calls that reached their rename. -/
lemma mem_order_iff {moves : List (ℕ × Move)} :
    i ∈ (run (World.step toml calls) (World.start file) moves).order ↔
      ReachedRename toml calls file moves i := by
  induction moves using List.reverseRecOn with
  | nil => simp [World.start, ReachedRename]
  | append_singleton moves event ih =>
    obtain ⟨j, move⟩ := event
    rw [run_append, run_cons, run_nil]
    constructor
    · intro hmem
      rcases @order_step toml calls (run (World.step toml calls) (World.start file) moves) j move
        with ⟨hsame, -⟩ | ⟨happend, n, content, previous, rfl, hsynced⟩
      · rw [hsame, ih] at hmem
        obtain ⟨front, n, back, rfl, hreached⟩ := hmem
        exact ⟨front, n, back ++ [(j, move)], by simp, hreached⟩
      · rw [happend, List.mem_append, ih, List.mem_singleton] at hmem
        rcases hmem with ⟨front, m, back, rfl, hreached⟩ | rfl
        · exact ⟨front, m, back ++ [(j, .proceed n)], by simp, hreached⟩
        · exact ⟨moves, n, [], rfl, content, previous, hsynced⟩
    · rintro ⟨front, n, back, hmoves, content, previous, hsynced⟩
      rcases List.eq_nil_or_concat back with rfl | ⟨back, last, rfl⟩
      · obtain ⟨rfl, hevent⟩ := List.append_inj' hmoves rfl
        obtain ⟨rfl, rfl⟩ := Prod.mk.inj (List.head_eq_of_cons_eq hevent)
        have hrename : (run (World.step toml calls) (World.start file) moves).step toml calls
            (j, .proceed n) =
            ((run (World.step toml calls) (World.start file) moves).rename j).enter j
              (.renamed previous) := by
          simp [World.step, hsynced, Phase.takesLock, Phase.next]
        rw [hrename]
        change j ∈ (World.rename _ j).order
        rw [rename_order, hsynced]
        simp [Phase.renames]
      · have hsplit : moves ++ [(j, move)] =
            (front ++ (i, .proceed n) :: back) ++ [last] := by
          rw [hmoves]
          simp
        obtain ⟨rfl, -⟩ := List.append_inj' hsplit rfl
        have hmem := ih.2 ⟨front, n, back, rfl, content, previous, hsynced⟩
        exact (@order_prefix_run toml calls _ [(j, move)]).subset hmem

/-- In every run, with crashes and failures wherever they come, the file is absent or decodes
to what the calls that reached their rename give one after another; the calls that return
have the answers of that order; and a call that fails before its rename never changed the
file. -/
theorem transactions_serializable (toml : Toml) (calls : ℕ → StoreCall)
    (start : Option (List UInt8)) (moves : List (ℕ × Move)) :
    let world := run (World.step toml calls) (World.start start) moves
    world.order.Nodup ∧
    (∀ i, i ∈ world.order ↔ ReachedRename toml calls start moves i) ∧
    (∀ store, GrantStore.loadContent toml start = ok store →
      Decodes toml calls store.records world.file world.order ∧
      (∀ i answer, world.phases i = .finished answer →
        ∃ front back, world.order = front ++ i :: back ∧
          answer = (calls i).reply (serial calls store.records front)) ∧
      ∀ i, world.phases i ≠ .panicked) ∧
    ∀ i stage error, world.phases i = .failed stage error → stage ≠ .directorySync →
      ∀ front move back, moves = front ++ (i, move) :: back →
        (run (World.step toml calls) (World.start start) (front ++ [(i, move)])).file =
          (run (World.step toml calls) (World.start start) front).file := by
  intro world
  have hordered : Ordered world := ordered_run moves
  refine ⟨hordered.nodup, fun i => mem_order_iff, ?_, ?_⟩
  · intro store hstart
    have hcoherent : Coherent toml calls store.records world :=
      run_invariant (fun _ event h => h.step event) (coherent_start hstart) moves
    refine ⟨hcoherent.file, ?_, ?_⟩
    · intro i answer hfinished
      have hknows := hcoherent.knows i
      rw [hfinished] at hknows
      exact hknows
    · intro i hpanicked
      have hknows := hcoherent.knows i
      rw [hpanicked] at hknows
      exact hknows
  · rintro i stage error hfailed hstage front move back rfl
    rw [run_append, run_cons, run_nil]
    rcases @order_step toml calls (run (World.step toml calls) (World.start start) front) i move
      with ⟨-, hfile⟩ | ⟨happend, -⟩
    · exact hfile
    · -- a rename would have put the call in the order, where a failed call never is
      exfalso
      refine hordered.fresh i (by simpa [hfailed, Phase.isBefore] using hstage) ?_
      have hmem : i ∈ ((run (World.step toml calls) (World.start start) front).step toml calls
          (i, move)).order := by
        rw [happend]
        simp
      have hworld : world = run (World.step toml calls)
          ((run (World.step toml calls) (World.start start) front).step toml calls (i, move))
          back := by
        change run _ _ (front ++ (i, move) :: back) = _
        rw [run_append, run_cons]
      rw [hworld]
      exact (order_prefix_run back).subset hmem

/-- A library that knows the document without records. -/
def emptyToml : Toml where
  fromStr text :=
    if text = "schema_version = 1\ngrants = []\n" then .ok ⟨1, []⟩ else .error "expected `grants`"
  toStringPretty document :=
    if document = ⟨1, []⟩ then .ok "schema_version = 1\ngrants = []\n"
    else .error "unsupported record"
  lossless := by
    intro document text h
    split_ifs at h with hdocument
    obtain rfl := Except.ok.inj h
    rw [if_pos rfl, hdocument]

/-- One process removes a decision, another fails to open the lock meanwhile. -/
theorem transactions_serializable_removal :
    let calls := fun _ => StoreCall.removeRecord ⟨"example", "clock"⟩ .contextReadV1
    let moves := List.replicate 4 (0, .proceed 64) ++ [(1, .proceed 64), (1, .proceed 64),
      (1, .fails (.io "permission denied"))] ++ List.replicate 13 (0, .proceed 64)
    let world := run (World.step emptyToml calls) (World.start none) moves
    world.order = [0] ∧ Decodes emptyToml calls .empty world.file world.order := by
  intro calls moves world
  refine ⟨?_, ((transactions_serializable emptyToml calls none moves).2.2.1 _ rfl).1⟩
  decide

end Serial

end TouchBar.Policy
