import TouchBar.Supervisor.WriteStages

/-!
# Failed writes

A request that fails shall leave every directory as it would be without the request.  A step
that fails before the rename removes the temporary name, a rename that moved the wrong file
is taken back.

There is one path on which the temporary name stays: a replaced or appended file whose target
is another file at the exchange.  The exchange is taken back, and the staged file stands
under its temporary name again.  A stream removes that name when it is dropped; a single
request does not.
-/

namespace TouchBar.Supervisor

open TouchBar.Rust TouchBar.Lib TouchBar.Policy TouchBar.Schema Outcome

variable {w w' : World} {temporary target : Entry} {file : ℕ} {request : BoundRequest}

namespace FilesystemWrite

open Prog Sys

/-! ## Staging a result -/

variable {write : FilesystemWriteFile}

/-- The descriptor and the metadata of a target change nothing. -/
lemma keeps_openAtBeneath (entry : Entry) : Keeps Untouched (openAtBeneath entry) :=
  keeps_of_triple (triple_openAtBeneath stable_untouched entry)

lemma keeps_validateRegularFile (file maximum : ℕ) :
    Keeps Untouched (validateRegularFile file maximum) :=
  keeps_of_triple (triple_validateRegularFile stable_untouched file maximum)

lemma triple_stageReplace (hplain : IsPlain write.path) :
    Triple Untouched (stageReplace request write)
      (fun staging w => ∃ file, Staged staging.temporary file w ∧
        isReserved staging.target.name = false) fun _ => Untouched := by
  refine triple_lift_bind filesystemScope_ne_panic (fun _ _ _ hw => hw) fun scope _ => ?_
  refine triple_bind (triple_openParent stable_untouched hplain) fun target => ?_
  refine triple_assume fun htarget => ?_
  refine triple_bind (keeps_openAtBeneath target) fun existing => ?_
  refine triple_bind (keeps_validateRegularFile existing _) fun metadata => ?_
  refine triple_bind (triple_temporaryName stable_untouched) fun name => ?_
  refine triple_assume fun hname => ?_
  refine triple_bind (triple_createExclusive hname) fun file => ?_
  refine triple_bind (triple_orUnlink keeps_writeAndSync) fun _ => ?_
  refine triple_bind (triple_orUnlink (keeps_checkCancelled stable_staged)) fun _ => ?_
  exact triple_pure _ fun w hw => ⟨file, hw, htarget⟩

lemma triple_stageAppend (hplain : IsPlain write.path) :
    Triple Untouched (stageAppend request write)
      (fun staging w => ∃ file, Staged staging.temporary file w ∧
        isReserved staging.target.name = false) fun _ => Untouched := by
  refine triple_lift_bind filesystemScope_ne_panic (fun _ _ _ hw => hw) fun scope _ => ?_
  refine triple_bind (triple_openParent stable_untouched hplain) fun target => ?_
  refine triple_assume fun htarget => ?_
  refine triple_bind (keeps_openAtBeneath target) fun existing => ?_
  refine triple_bind (keeps_validateRegularFile existing _) fun metadata => ?_
  refine triple_lift_bind okOr_ne_panic (fun _ _ _ hw => hw) fun size _ => ?_
  refine triple_lift_bind rejectIf_ne_panic (fun _ _ _ hw => hw) fun _ _ => ?_
  refine triple_bind (triple_temporaryName stable_untouched) fun name => ?_
  refine triple_assume fun hname => ?_
  refine triple_bind (triple_createExclusive hname) fun file => ?_
  refine triple_bind (triple_orUnlink (keeps_bind keeps_copyExact fun _ => keeps_pwriteAllAt))
    fun _ => ?_
  refine triple_bind (triple_orUnlink (keeps_fdatasync stable_staged file)) fun _ => ?_
  refine triple_bind (triple_orUnlink
    (keeps_of_triple (triple_descriptorMetadata stable_staged existing))) fun afterCopy => ?_
  refine triple_bind (triple_orUnlink (keeps_lift rejectIf_ne_panic)) fun _ => ?_
  refine triple_bind (triple_orUnlink (keeps_checkCancelled stable_staged)) fun _ => ?_
  exact triple_pure _ fun w hw => ⟨file, hw, htarget⟩

/-! ## Operations that always clean up -/

lemma triple_syncDirectory_succeeds {E : BrokerErrorCode → World → Prop} (directory : ℕ) :
    Triple World.Succeeds (syncDirectory directory) (fun _ => World.Succeeds) E :=
  triple_call_succeeds World.stable_succeeds (fun _ hw => hw) fun _ _ hw => hw

/-- A created file is found where it was placed, so nothing fails after the rename. -/
lemma triple_createFile (hplain : IsPlain write.path) :
    Triple Untouched (createFile request write) (fun _ _ => True) fun _ => Untouched := by
  refine triple_bind (triple_openParent stable_untouched hplain) fun target => ?_
  refine triple_assume fun htarget => ?_
  refine triple_bind (triple_temporaryName stable_untouched) fun name => ?_
  refine triple_assume fun hname => ?_
  refine triple_bind (triple_createExclusive hname) fun file => ?_
  refine triple_bind (triple_orUnlink keeps_writeAndSync) fun _ => ?_
  refine triple_bind (triple_orUnlink (keeps_checkCancelled stable_staged)) fun _ => ?_
  refine triple_bind (Q := fun metadata w => Staged ⟨target.directory, name⟩ file w ∧
      metadata.file = file)
    (triple_orUnlink (triple_weaken (triple_descriptorMetadata stable_staged file)
      (fun _ hw => hw) (fun _ _ hw => ⟨hw.1, by rw [hw.2]; rfl⟩) fun _ _ hw => hw))
    fun metadata => ?_
  refine triple_assume fun hfile => ?_
  refine triple_bind (triple_orUnlink triple_renameNoReplace_staged) fun _ => ?_
  refine triple_bind (Q := fun committed w => Placed target file w ∧ ∃ found,
    committed = ok found ∧ found.file = file ∧ found.regular = true ∧ found.links = 1)
    (triple_attempt (triple_weaken (triple_metadataAt_placed fun _ _ => False) (fun _ hw => hw)
      (fun found _ hw => ⟨hw.1, found, rfl, hw.2⟩) fun _ _ hw => hw.elim)) fun committed => ?_
  refine triple_assume fun ⟨found, hfound, hsame⟩ => ?_
  subst hfound
  have hplaced : sameFile metadata found = true := by
    simp [sameFile, hfile, hsame]
  simp only [hplaced, Bool.not_true, Bool.false_eq_true, if_false]
  intro w hw
  exact triple_bind (triple_syncDirectory_succeeds _) (fun _ => triple_pure _ fun _ _ => trivial)
    w hw.succeeds

lemma triple_deleteFile {path : FilesystemPath} (hplain : IsPlain path.path) :
    Triple Untouched (deleteFile request path) (fun _ _ => True) fun _ => Untouched := by
  refine triple_lift_bind filesystemScope_ne_panic (fun _ _ _ hw => hw) fun scope _ => ?_
  refine triple_bind (triple_openParent stable_untouched hplain) fun target => ?_
  refine triple_assume fun htarget => ?_
  refine triple_bind (keeps_openAtBeneath target) fun existing => ?_
  refine triple_bind (keeps_validateRegularFile existing _) fun metadata => ?_
  refine triple_bind (keeps_checkCancelled stable_untouched) fun _ => ?_
  refine triple_bind (triple_temporaryName stable_untouched) fun name => ?_
  refine triple_assume fun _ => ?_
  refine triple_bind triple_renameNoReplace fun _ => ?_
  refine triple_bind triple_verifyMoved fun _ => ?_
  refine triple_bind (Q := fun _ => World.Succeeds) (triple_call_succeeds stable_moved
    (fun w ⟨_, hw⟩ => hw.succeeds) fun turn w hw => ?_) fun _ => ?_
  · obtain ⟨other, hw⟩ := hw
    rw [hw.name_destination]
    exact hw.succeeds
  exact triple_bind (triple_syncDirectory_succeeds _) fun _ => triple_pure _ fun _ _ => trivial

lemma triple_renameFile {rename : FilesystemRename} (hsource : IsPlain rename.source)
    (hdestination : IsPlain rename.destination) :
    Triple Untouched (renameFile request rename) (fun _ _ => True) fun _ => Untouched := by
  refine triple_lift_bind filesystemScope_ne_panic (fun _ _ _ hw => hw) fun scope _ => ?_
  refine triple_bind (triple_openParent stable_untouched hsource) fun source => ?_
  refine triple_assume fun _ => ?_
  refine triple_bind (triple_openParent stable_untouched hdestination) fun destination => ?_
  refine triple_assume fun _ => ?_
  refine triple_bind (keeps_openAtBeneath source) fun existing => ?_
  refine triple_bind (keeps_validateRegularFile existing _) fun metadata => ?_
  refine triple_bind (keeps_checkCancelled stable_untouched) fun _ => ?_
  refine triple_bind triple_renameNoReplace fun _ => ?_
  refine triple_bind (triple_weaken triple_verifyMoved (fun _ hw => hw)
    (Q := fun _ => World.Succeeds) (fun _ w ⟨_, hw⟩ => hw.succeeds) fun _ _ hw => hw) fun _ => ?_
  refine triple_bind (triple_syncDirectory_succeeds _) fun _ => ?_
  exact triple_bind (triple_syncDirectory_succeeds _) fun _ => triple_pure _ fun _ _ => trivial

lemma triple_createDirectory {path : FilesystemPath} (hplain : IsPlain path.path) :
    Triple Untouched (createDirectory request path) (fun _ _ => True) fun _ => Untouched := by
  refine triple_bind (triple_openParent stable_untouched hplain) fun target => ?_
  refine triple_assume fun htarget => ?_
  refine triple_bind (keeps_checkCancelled stable_untouched) fun _ => ?_
  refine triple_bind (Q := fun _ => World.Succeeds) (triple_call stable_untouched
    (fun _ _ hw => hw) fun turn w hw => ?_) fun _ => ?_
  · cases w.files.names target with
    | none => exact hw.succeeds
    | some _ => exact hw
  exact triple_bind (triple_syncDirectory_succeeds _) fun _ => triple_pure _ fun _ _ => trivial

/-! ## Replacing and appending -/

/-- The part of a mutation before its exchange, where it comes to one: what it has staged, and
whether the target must be unchanged. -/
def stageExchange (request : BoundRequest) : AuthorizedMutation → Sys (Option (Staging × Bool))
  | .replace write => do
    let staging ← stageReplace request write
    return some (staging, false)
  | .append write => do
    let staging ← stageAppend request write
    return some (staging, true)
  | _ => return none

/-- `execute` up to the exchange. -/
def beforeExchange (request : BoundRequest) : Sys (Option (Staging × Bool)) := do
  checkCancelled
  let mutation ← Prog.lift (decodeAndAuthorize request)
  stageExchange request mutation

/-- Where the request comes to an exchange, the name of the target is free at that moment or
leads to the file that was validated. -/
def KeptAtExchange (request : BoundRequest) (w : World) : Prop :=
  ∀ staging snapshot w', beforeExchange request w = (ok (some (staging, snapshot)), w') →
    TargetKept snapshot staging.expected staging.target w'.nextTurn.2

/-- What an error leaves behind: nothing, or the staged file under its temporary name. -/
def Leaves (kept : Prop) (w : World) : Prop :=
  (kept → Untouched w) ∧ (¬kept → ∃ temporary file, Staged temporary file w)

lemma Leaves.of_untouched {kept : Prop} (hkept : kept) (h : Untouched w) : Leaves kept w :=
  ⟨fun _ => h, fun hnot => absurd hkept hnot⟩

/-- A staged result that is exchanged with its target. -/
lemma exchange_ends {stage : Sys Staging} {snapshot : Bool}
    {receipt : Staging → FilesystemMutationResult}
    (hstage : Triple Untouched stage (fun staging w => ∃ file, Staged staging.temporary file w ∧
      isReserved staging.target.name = false) fun _ => Untouched) (h : Untouched w) :
    Ends (fun _ _ => ∀ staging w', stage w = (ok staging, w') →
        TargetKept snapshot staging.expected staging.target w'.nextTurn.2)
      (fun _ => Leaves (∀ staging w', stage w = (ok staging, w') →
        TargetKept snapshot staging.expected staging.target w'.nextTurn.2))
      ((do
        let staging ← stage
        exchangeAndRemove staging.temporary staging.target staging.expected snapshot
        syncDirectory staging.target.directory
        return receipt staging) w) := by
  have hstaged := hstage w h
  cases hrun : stage w with
  | mk outcome w' =>
    rw [hrun] at hstaged
    cases outcome with
    | panic => exact hstaged.elim
    | err code =>
      rw [bind_of_err hrun]
      refine Leaves.of_untouched ?_ hstaged
      rintro staging w'' h
      cases h
    | ok staging =>
      obtain ⟨file, hfile, hplain⟩ := hstaged
      rw [bind_of_ok hrun]
      have hkept : (∀ staging' w'', (ok staging, w') = ((ok staging' :
          Outcome BrokerErrorCode Staging), w'') → TargetKept snapshot staging'.expected
            staging'.target w''.nextTurn.2) ↔
          TargetKept snapshot staging.expected staging.target w'.nextTurn.2 := by
        constructor
        · exact fun h => h staging w' rfl
        · intro h staging' w'' heq
          cases heq
          exact h
      simp only [hkept]
      have hexchange := exchangeAndRemove_ends snapshot staging.expected hfile hplain
      refine triple_bind (P := fun s => s = w') (Q := fun _ w'' => w''.Succeeds ∧ TargetKept
        snapshot staging.expected staging.target w'.nextTurn.2)
        (fun s hs => ?_) (fun _ => triple_assume fun hkept => ?_) w' rfl
      · subst hs
        refine hexchange.weaken (fun _ _ h => h.symm) fun _ w'' hw => ?_
        exact ⟨fun h => (hw.1 h).toUntouched, fun h => ⟨_, _, hw.2 h⟩⟩
      · exact triple_bind (triple_syncDirectory_succeeds _) fun _ =>
          triple_pure _ fun _ _ => hkept

lemma staged_eq_ok {stage : Sys Staging} {snapshot snapshot' : Bool} {staging : Staging}
    {w'' : World} :
    (do let staging ← stage; return some (staging, snapshot) : Sys (Option (Staging × Bool))) w =
        (ok (some (staging, snapshot')), w'') ↔
      stage w = (ok staging, w'') ∧ snapshot = snapshot' := by
  cases hrun : stage w with
  | mk outcome w' =>
    cases outcome with
    | ok staging' =>
      rw [bind_of_ok hrun]
      change ((ok (some (staging', snapshot)), w') : Outcome BrokerErrorCode _ × World) = _ ↔ _
      simp only [Prod.mk.injEq, Outcome.ok.injEq, Option.some.injEq]
      tauto
    | err code =>
      rw [bind_of_err hrun]
      simp
    | panic =>
      change Prog.bind stage _ w = _ ↔ _
      rw [Prog.bind, hrun]
      simp

/-- An operation that always cleans up. -/
lemma ends_of_untouched {kept : Prop} {x : Sys FilesystemMutationResult} (hkept : kept)
    (hx : Triple Untouched x (fun _ _ => True) fun _ => Untouched) (h : Untouched w) :
    Ends (fun _ _ => kept) (fun _ => Leaves kept) (x w) :=
  (hx w h).weaken (fun _ _ _ => hkept) fun _ _ h => Leaves.of_untouched hkept h

/-- A request that comes to no exchange. -/
lemma kept_of_none (h : beforeExchange request w = (ok none, w')) : KeptAtExchange request w := by
  intro staging snapshot w'' hbefore
  rw [h] at hbefore
  cases hbefore

/-- What the operation of a mutation leaves where it fails. -/
lemma mutate_ends {mutation : AuthorizedMutation} (hrun : checkCancelled w = (ok (), w'))
    (hmutation : decodeAndAuthorize request = ok mutation) (h : Untouched w') :
    Ends (fun _ _ => KeptAtExchange request w) (fun _ => Leaves (KeptAtExchange request w))
      (mutate request mutation w') := by
  have hplain := plain_decodeAndAuthorize hmutation
  have hbefore : beforeExchange request w = stageExchange request mutation w' := by
    rw [beforeExchange, bind_of_ok hrun, hmutation]
    rfl
  cases mutation with
  | replace write =>
    have hkept : KeptAtExchange request w ↔ ∀ staging w'', stageReplace request write w' =
        (ok staging, w'') → TargetKept false staging.expected staging.target w''.nextTurn.2 := by
      simp only [KeptAtExchange, hbefore, stageExchange, staged_eq_ok, and_imp]
      exact ⟨fun h staging w'' hs => h staging false w'' hs rfl,
        fun h staging snapshot w'' hs hsnapshot => hsnapshot ▸ h staging w'' hs⟩
    rw [hkept]
    exact exchange_ends (triple_stageReplace hplain) h
  | append write =>
    have hkept : KeptAtExchange request w ↔ ∀ staging w'', stageAppend request write w' =
        (ok staging, w'') → TargetKept true staging.expected staging.target w''.nextTurn.2 := by
      simp only [KeptAtExchange, hbefore, stageExchange, staged_eq_ok, and_imp]
      exact ⟨fun h staging w'' hs => h staging true w'' hs rfl,
        fun h staging snapshot w'' hs hsnapshot => hsnapshot ▸ h staging w'' hs⟩
    rw [hkept]
    exact exchange_ends (triple_stageAppend hplain) h
  | create write => exact ends_of_untouched (kept_of_none hbefore) (triple_createFile hplain) h
  | delete path => exact ends_of_untouched (kept_of_none hbefore) (triple_deleteFile hplain) h
  | rename rename =>
    exact ends_of_untouched (kept_of_none hbefore) (triple_renameFile hplain.1 hplain.2) h
  | createDirectory path =>
    exact ends_of_untouched (kept_of_none hbefore) (triple_createDirectory hplain) h

/-- A single request succeeds where the target is kept; an error leaves nothing behind exactly
if the target was kept. -/
theorem execute_ends (request : BoundRequest) (h : Untouched w) :
    Ends (fun _ _ => KeptAtExchange request w) (fun _ => Leaves (KeptAtExchange request w))
      (execute request w) := by
  have hcancelled := keeps_checkCancelled stable_untouched w h
  rw [execute]
  cases hrun : checkCancelled w with
  | mk outcome w' =>
    rw [hrun] at hcancelled
    cases outcome with
    | panic => exact hcancelled.elim
    | err code =>
      rw [bind_of_err hrun]
      refine Leaves.of_untouched ?_ hcancelled
      intro staging snapshot w'' hbefore
      rw [beforeExchange, bind_of_err hrun] at hbefore
      cases hbefore
    | ok _ =>
      rw [bind_of_ok hrun]
      cases hmutation : decodeAndAuthorize request with
      | panic => exact absurd hmutation decodeAndAuthorize_ne_panic
      | err code =>
        have hkept : KeptAtExchange request w := by
          intro staging snapshot w'' hbefore
          rw [beforeExchange, bind_of_ok hrun, hmutation] at hbefore
          cases hbefore
        exact Leaves.of_untouched hkept hcancelled
      | ok mutation =>
        change Ends _ _ ((mutate request mutation >>= _) w')
        refine triple_bind (P := fun s => s = w') (Q := fun _ _ => KeptAtExchange request w)
          (fun s hs => ?_) (fun receipt => ?_) w' rfl
        · subst hs
          exact mutate_ends hrun hmutation hcancelled
        · -- a receipt can always be encoded
          obtain ⟨bytes, hbytes⟩ := receipt.encode_ok
          rw [hbytes]
          exact triple_pure receipt fun _ h => h

end FilesystemWrite

/-! ## Streams -/

namespace WriteStreams

open Prog Sys

variable {s : WriteBroker} {resourceId : ℕ} {upload : WriteUpload}

/-- An upload that was not committed: its file stands under the temporary name, or has lost
it. -/
structure Pending (upload : WriteUpload) (w : World) : Prop where
  uncommitted : upload.committed = false
  plain : isReserved upload.target.name = false
  file : Staged upload.temporary upload.temporaryFile w ∨
    Detached upload.temporary upload.temporaryFile w

/-- The stream has changed nothing but its temporary file. -/
def Intact (resourceId : ℕ) (s : WriteBroker) : Prop :=
  match s.uploads.get resourceId with
  | some upload => Pending upload s.world
  | none => Untouched s.world

lemma stable_pending : Stable (Pending upload) where
  interfere w action hrenamed h := ⟨h.uncommitted, h.plain,
    h.file.imp (stable_staged.interfere w action hrenamed)
      (stable_detached.interfere w action hrenamed)⟩
  turns w turn turns hturns h := ⟨h.uncommitted, h.plain,
    h.file.imp (stable_staged.turns w turn turns hturns)
      (stable_detached.turns w turn turns hturns)⟩

lemma pending_written {bytes : List UInt8} {offset : ℕ} (h : Pending upload w) :
    Pending upload (written upload.temporaryFile bytes offset w) :=
  ⟨h.uncommitted, h.plain, h.file.imp staged_written detached_written⟩

lemma keeps_pwriteAllAt (bytes : List UInt8) (offset : ℕ) :
    Keeps (Pending upload) (pwriteAllAt upload.temporaryFile bytes offset) :=
  triple_pwriteAllAt (I := fun _ _ => Pending upload) bytes offset (fun _ _ => stable_pending)
    (fun _ _ _ _ _ => pending_written) fun _ _ _ _ h => h

lemma keeps_copyExact (source length : ℕ) :
    Keeps (Pending upload) (copyExact source upload.temporaryFile length) :=
  triple_copyExact (I := fun _ _ => Pending upload) length (fun _ _ => stable_pending)
    (fun _ _ _ h => h) (fun _ _ _ _ _ => pending_written) fun _ _ _ _ h => h

/-- The exchange of an upload: a failure leaves it pending. -/
lemma triple_exchangeAndRemove {expected : Stat} {snapshot : Bool} :
    Triple (Pending upload) (exchangeAndRemove upload.temporary upload.target expected snapshot)
      (fun _ => World.Succeeds) fun _ => Pending upload := by
  rintro w ⟨huncommitted, hplain, hstaged | hdetached⟩
  · refine (exchangeAndRemove_ends snapshot expected hstaged hplain).weaken (fun _ _ h => h.2)
      fun _ w' h => ?_
    refine ⟨huncommitted, hplain, ?_⟩
    by_cases hkept : TargetKept snapshot expected upload.target w.nextTurn.2
    · exact .inr (h.1 hkept)
    · exact .inl (h.2 hkept)
  · -- the temporary name is gone, and there is nothing to exchange
    have hrename : Triple (Detached upload.temporary upload.temporaryFile)
        (renameExchange upload.temporary upload.target) (fun _ _ => False)
        fun _ => Detached upload.temporary upload.temporaryFile := by
      refine triple_call stable_detached (fun _ _ hw => hw) fun turn w hw => ?_
      rw [hw.names, hw.absent]
      exact hw
    refine triple_bind (triple_onError hrename fun _ _ => unlink_detached)
      (fun _ _ h => h.elim) w hdetached |>.weaken (fun _ _ h => h)
        fun _ _ h => ⟨huncommitted, hplain, .inr h⟩

lemma triple_commitCreated {metadata : Stat} (hfile : metadata.file = upload.temporaryFile) :
    Triple (Pending upload) (commitCreated upload metadata) (fun _ => World.Succeeds)
      fun _ => Pending upload := by
  rintro w ⟨huncommitted, hplain, hstaged | hdetached⟩
  · refine triple_bind (Q := fun _ => Placed upload.target upload.temporaryFile)
      (triple_weaken triple_renameNoReplace_staged (fun _ h => h) (fun _ _ h => h)
        fun _ _ h => ⟨huncommitted, hplain, .inl h⟩) (fun _ => ?_) w hstaged
    refine triple_bind (triple_metadataAt_placed _) fun committed => ?_
    refine triple_assume fun hfound => ?_
    have hsame : sameFile metadata committed = true := by simp [sameFile, hfile, hfound]
    simp only [hsame, Bool.not_true, Bool.false_eq_true, if_false]
    exact triple_pure _ fun _ h => h.succeeds
  · have hrename : Triple (Detached upload.temporary upload.temporaryFile)
        (renameNoReplace upload.temporary upload.target) (fun _ _ => False)
        fun _ => Detached upload.temporary upload.temporaryFile := by
      refine triple_call stable_detached (fun _ _ hw => hw) fun turn w hw => ?_
      rw [hw.names, hw.absent]
      exact hw
    refine triple_bind (triple_weaken hrename (fun _ h => h) (fun _ _ h => h)
      fun _ _ h => ⟨huncommitted, hplain, .inr h⟩) (fun _ _ h => h.elim) w hdetached

lemma triple_place {metadata : Stat} (hfile : metadata.file = upload.temporaryFile) :
    Triple (Pending upload) (place upload metadata) (fun _ => World.Succeeds)
      fun _ => Pending upload := by
  rw [place]
  split
  · exact triple_commitCreated hfile
  · exact triple_lift_bind okOr_ne_panic (fun _ _ _ h => h) fun _ _ => triple_exchangeAndRemove
  · exact triple_lift_bind okOr_ne_panic (fun _ _ _ h => h) fun _ _ => triple_exchangeAndRemove

/-! ### Commands -/

/-- The broker holds an upload, and something holds of the files. -/
def Holds (resourceId : ℕ) (upload : WriteUpload) (P : World → Prop) (s : WriteBroker) : Prop :=
  P s.world ∧ s.uploads.get resourceId = some upload

lemma Holds.intact (h : Holds resourceId upload (Pending upload) s) : Intact resourceId s := by
  rw [Intact, h.2]
  exact h.1

/-- A program of the world does not look at the uploads. -/
lemma triple_sys {α : Type} {P : World → Prop} {x : Sys α} {Q : α → World → Prop}
    {E : BrokerErrorCode → World → Prop} (h : Triple P x Q E) (F : BTreeMap ℕ WriteUpload → Prop) :
    Triple (fun s => P s.world ∧ F s.uploads) (sys x) (fun a s => Q a s.world ∧ F s.uploads)
      fun e s => E e s.world ∧ F s.uploads :=
  triple_zoom h (fun s : WriteBroker => F s.uploads) (fun _ _ => rfl) fun _ _ h => h

lemma triple_sys_holds {α : Type} {P : World → Prop} {x : Sys α} {Q : α → World → Prop}
    (h : Triple P x Q fun _ => Pending upload) :
    Triple (Holds resourceId upload P) (sys x) (fun a => Holds resourceId upload (Q a))
      fun _ => Intact resourceId :=
  triple_weaken (triple_sys h fun uploads => uploads.get resourceId = some upload)
    (fun _ h => h) (fun _ _ h => h) fun _ _ h => Holds.intact h

lemma triple_setUpload {P : World → Prop} {E : BrokerErrorCode → WriteBroker → Prop}
    (upload' : WriteUpload) :
    Triple (Holds resourceId upload P) (setUpload resourceId upload')
      (fun _ => Holds resourceId upload' P) E := by
  refine triple_modify fun s hs => ⟨hs.1, ?_⟩
  rw [BTreeMap.get_insert, if_pos rfl]

lemma triple_upload : Triple (Intact resourceId) (WriteStreams.upload resourceId)
    (fun upload => Holds resourceId upload (Pending upload)) fun _ => Intact resourceId := by
  intro s hs
  have hintact := hs
  rw [Intact] at hs
  cases hget : s.uploads.get resourceId with
  | none =>
    rw [WriteStreams.upload, bind_of_ok (a := none) (t := s) (by rw [Prog.get, hget])]
    exact hintact
  | some upload =>
    rw [hget] at hs
    rw [WriteStreams.upload, bind_of_ok (a := some upload) (t := s) (by rw [Prog.get, hget])]
    exact ⟨hs, hget⟩

/-- An upload that differs in what a command may change. -/
lemma Pending.of_eq {upload' : WriteUpload} (h : Pending upload w)
    (hcommitted : upload'.committed = upload.committed) (htarget : upload'.target = upload.target)
    (htemporary : upload'.temporary = upload.temporary)
    (hfile : upload'.temporaryFile = upload.temporaryFile) : Pending upload' w := by
  refine ⟨?_, ?_, ?_⟩
  · rw [hcommitted, h.uncommitted]
  · rw [htarget, h.plain]
  · rw [htemporary, hfile]
    exact h.file

lemma Holds.intact_of_eq {upload' : WriteUpload}
    (h : Holds resourceId upload' (Pending upload) s)
    (hcommitted : upload'.committed = upload.committed) (htarget : upload'.target = upload.target)
    (htemporary : upload'.temporary = upload.temporary)
    (hfile : upload'.temporaryFile = upload.temporaryFile) : Intact resourceId s :=
  Holds.intact ⟨h.1.of_eq hcommitted htarget htemporary hfile, h.2⟩

lemma triple_prepareStreamAppend :
    Triple (Holds resourceId upload (Pending upload)) (prepareStreamAppend resourceId upload)
      (fun prepared => Holds resourceId prepared (Pending prepared))
      fun _ => Intact resourceId := by
  rw [prepareStreamAppend]
  split_ifs
  · exact triple_pure _ fun _ h => h
  · exact triple_fail _ fun _ h => h.intact
  refine triple_lift_bind okOr_ne_panic (fun _ _ _ h => h.intact) fun expectedTarget _ => ?_
  refine triple_bind (triple_sys_holds (keeps_copyExact _ _)) fun _ => ?_
  refine triple_bind (triple_sys_holds (keeps_of_triple
    (triple_descriptorMetadata stable_pending _))) fun afterCopy => ?_
  refine triple_lift_bind rejectIf_ne_panic (fun _ _ _ h => h.intact) fun _ _ => ?_
  refine triple_bind (triple_setUpload { upload with prefixCopied := true }) fun _ => ?_
  exact triple_pure _ fun _ h => ⟨h.1.of_eq rfl rfl rfl rfl, h.2⟩

lemma authorizeFor_ne_panic {n : ℕ} : authorizeFor request n upload ≠ panic := by
  refine bind_ne_panic.mpr ⟨rejectIf_ne_panic, fun _ _ => ?_⟩
  refine bind_ne_panic.mpr ⟨rejectIf_ne_panic, fun _ _ => bind_ne_panic.mpr
    ⟨FilesystemWrite.filesystemScope_ne_panic, fun _ _ => bind_ne_panic.mpr
      ⟨rejectIf_ne_panic, fun _ _ => ite_ne_panic ?_ (ite_ne_panic ?_ (by simp))⟩⟩⟩
  · refine bind_ne_panic.mpr ⟨mapSchemaError_ne_panic
      (FilesystemWriteStreamChunk.decode_ne_panic _), fun _ _ => ?_⟩
    refine bind_ne_panic.mpr ⟨rejectIf_ne_panic, fun _ _ => bind_ne_panic.mpr
      ⟨okOr_ne_panic, fun _ _ => bind_ne_panic.mpr ⟨rejectIf_ne_panic, fun _ _ => by simp⟩⟩⟩
  · refine bind_ne_panic.mpr ⟨mapSchemaError_ne_panic
      (map_ne_panic.mpr (decodeResourceId_ne_panic _ _)), fun _ _ => ?_⟩
    exact bind_ne_panic.mpr ⟨rejectIf_ne_panic, fun _ _ => by simp⟩

/-- A command of this stream. -/
def Concerns (resourceId : ℕ) (request : BoundRequest) : Prop :=
  ∀ n, commandResource request = ok n → n = resourceId

lemma triple_writeUploadChunk (hconcerns : Concerns resourceId request)
    (hoperation : request.operation = filesystemWriteStreamChunkOperation) :
    Triple (Intact resourceId) (writeUploadChunk request) (fun _ => Intact resourceId)
      fun _ => Intact resourceId := by
  refine triple_lift_bind (mapSchemaError_ne_panic (FilesystemWriteStreamChunk.decode_ne_panic _))
    (fun _ _ _ h => h) fun decoded hdecoded => ?_
  have hid : decoded.resourceId.toNat = resourceId := by
    refine hconcerns _ ?_
    rw [commandResource, if_pos hoperation, hdecoded]
    rfl
  rw [hid]
  refine triple_bind triple_upload fun found => ?_
  refine triple_lift_bind authorizeFor_ne_panic (fun _ _ _ h => h.intact) fun authorized _ => ?_
  cases authorized with
  | commit => exact triple_fail _ fun _ h => h.intact
  | chunk chunk endOffset =>
    refine triple_bind triple_prepareStreamAppend fun prepared => ?_
    refine triple_lift_bind okOr_ne_panic (fun _ _ _ h => h.intact) fun offset _ => ?_
    refine triple_bind (triple_sys_holds (keeps_pwriteAllAt _ _)) fun _ => ?_
    refine triple_weaken (triple_setUpload { prepared with receivedBytes := endOffset })
      (fun _ h => h) (fun _ _ h => ?_) fun _ _ h => h
    exact h.intact_of_eq rfl rfl rfl rfl

/-- A commit that fails leaves the stream intact. -/
lemma triple_commitUpload (hconcerns : Concerns resourceId request)
    (hoperation : request.operation = filesystemWriteStreamCommitOperation) :
    Triple (Intact resourceId) (commitUpload request) (fun _ _ => True)
      fun _ => Intact resourceId := by
  refine triple_lift_bind (mapSchemaError_ne_panic
    (map_ne_panic.mpr (decodeResourceId_ne_panic _ _))) (fun _ _ _ h => h)
    fun decoded hdecoded => ?_
  have hid : decoded.resourceId.toNat = resourceId := by
    refine hconcerns _ ?_
    rw [commandResource, if_neg (by rw [hoperation]; decide), if_pos hoperation, hdecoded]
    rfl
  rw [hid]
  refine triple_bind triple_upload fun found => ?_
  refine triple_lift_bind authorizeFor_ne_panic (fun _ _ _ h => h.intact) fun authorized _ => ?_
  cases authorized with
  | chunk chunk endOffset => exact triple_fail _ fun _ h => h.intact
  | commit =>
    refine triple_bind (triple_sys_holds (keeps_checkCancelled stable_pending)) fun _ => ?_
    refine triple_bind triple_prepareStreamAppend fun prepared => ?_
    refine triple_bind (triple_sys_holds (keeps_fdatasync stable_pending _)) fun _ => ?_
    refine triple_bind (triple_sys_holds (keeps_checkCancelled stable_pending)) fun _ => ?_
    refine triple_bind (triple_sys_holds (keeps_readClosed stable_pending)) fun closed => ?_
    split_ifs
    · refine triple_bind (triple_setUpload { prepared with closed := true }) fun _ => ?_
      exact triple_fail _ fun _ h => h.intact_of_eq rfl rfl rfl rfl
    refine triple_bind (Q := fun metadata s => Holds resourceId prepared (Pending prepared) s ∧
        metadata.file = prepared.temporaryFile)
      (triple_weaken (triple_sys_holds (triple_validateRegularFile stable_pending _ _))
        (fun _ h => h) (fun _ _ h => ⟨⟨h.1.1, h.2⟩, by rw [h.1.2.1]; rfl⟩) fun _ _ h => h)
      fun metadata => ?_
    refine triple_assume fun hfile => ?_
    refine triple_lift_bind okOr_ne_panic (fun _ _ _ h => h.intact) fun size _ => ?_
    refine triple_lift_bind rejectIf_ne_panic (fun _ _ _ h => h.intact) fun _ _ => ?_
    refine triple_bind (triple_sys_holds (triple_place hfile)) fun _ => ?_
    -- nothing fails any more
    refine triple_bind (triple_setUpload { prepared with committed := true }) fun _ => ?_
    refine triple_bind (Q := fun _ _ => True) (triple_weaken (triple_sys
      (E := fun _ _ => False) (FilesystemWrite.triple_syncDirectory_succeeds _) fun _ => True)
      (fun s h => ⟨h.1, trivial⟩) (fun _ _ _ => trivial) fun _ _ h => h.1.elim) fun _ => ?_
    exact triple_pure _ fun _ _ => trivial

/-- A command that is no successful commit leaves the stream intact. -/
lemma triple_execute (hconcerns : Concerns resourceId request) :
    Triple (Intact resourceId) (execute request)
      (fun receipt s => receipt = none → Intact resourceId s) fun _ => Intact resourceId := by
  have hcancelled : Triple (Intact resourceId) (sys checkCancelled)
      (fun _ => Intact resourceId) fun _ => Intact resourceId := by
    intro s hs
    cases hget : s.uploads.get resourceId with
    | some upload =>
      rw [Intact, hget] at hs
      exact Ends.weaken (triple_sys_holds (keeps_checkCancelled stable_pending) s ⟨hs, hget⟩)
        (fun _ _ h => h.intact) fun _ _ h => h
    | none =>
      rw [Intact, hget] at hs
      refine Ends.weaken (triple_sys (keeps_checkCancelled stable_untouched)
        (fun uploads => uploads.get resourceId = none) s ⟨hs, hget⟩) ?_ ?_
      all_goals
        rintro _ s' ⟨huntouched, hnone⟩
        rw [Intact, hnone]
        exact huntouched
  refine triple_bind hcancelled fun _ => ?_
  split_ifs with hchunk hcommit
  · refine triple_bind (triple_writeUploadChunk hconcerns hchunk) fun _ => ?_
    exact triple_pure _ fun _ h _ => h
  · refine triple_bind (triple_commitUpload hconcerns hcommit) fun receipt => ?_
    obtain ⟨bytes, hbytes⟩ := receipt.encode_ok
    rw [hbytes]
    intro s _ hnone
    cases hnone
  · exact triple_fail _ fun _ h => h

/-! ### Runs -/

lemma untouched_start {turns : List CallTurn} (hturns : ∀ turn ∈ turns, turn.failure = none)
    (h : Untouched w) : Untouched (World.start turns w) :=
  ⟨⟨h.inodes, h.shadow_lt, hturns⟩, h.names⟩

lemma pending_start {turns : List CallTurn} (hturns : ∀ turn ∈ turns, turn.failure = none)
    (h : Pending upload w) : Pending upload (World.start turns w) := by
  refine ⟨h.uncommitted, h.plain, h.file.imp (fun h => ?_) fun h => ?_⟩
  · exact ⟨⟨h.inodes, h.shadow_lt, hturns⟩, ⟨h.unnamed, h.lt⟩, h.names, h.absent, h.reserved,
      h.regular, h.links⟩
  · exact ⟨untouched_start hturns h.toUntouched, ⟨h.unnamed, h.lt⟩, h.absent, h.reserved⟩

lemma intact_withTurns {turns : List CallTurn} (hturns : ∀ turn ∈ turns, turn.failure = none)
    (h : Intact resourceId s) : Intact resourceId (withTurns turns s) := by
  rw [Intact] at h ⊢
  change match s.uploads.get resourceId with
    | some upload => Pending upload (World.start turns s.world)
    | none => Untouched (World.start turns s.world)
  cases hget : s.uploads.get resourceId with
  | some upload =>
    rw [hget] at h
    exact pending_start hturns h
  | none =>
    rw [hget] at h
    exact untouched_start hturns h

/-- Dropping an upload that was not committed leaves nothing of it. -/
lemma dropUpload_untouched (h : Intact resourceId s) :
    Untouched (dropUpload resourceId s).world ∧
      (dropUpload resourceId s).uploads.get resourceId = none := by
  rw [Intact] at h
  rw [dropUpload]
  cases hget : s.uploads.get resourceId with
  | none =>
    rw [hget] at h
    exact ⟨h, hget⟩
  | some upload =>
    rw [hget] at h
    simp only [h.uncommitted, Bool.false_eq_true, if_false]
    refine ⟨?_, ?_⟩
    · rcases h.file with hstaged | hdetached
      · exact (unlink_staged hstaged).toUntouched
      · exact (unlink_detached hdetached).toUntouched
    · change (s.uploads.remove resourceId).get resourceId = none
      rw [BTreeMap.remove, BTreeMap.get_retain]
      simp

/-- The events of a stream: commands that name it, of which no system call fails. -/
def StreamEvent.Allowed (resourceId : ℕ) : StreamEvent → Prop
  | .command request turns =>
    Concerns resourceId request ∧ ∀ turn ∈ turns, turn.failure = none
  | .close turns => ∀ turn ∈ turns, turn.failure = none

/-- No commit in a run succeeds. -/
def Uncommitted (resourceId : ℕ) : List StreamEvent → WriteBroker → Prop
  | [], _ => True
  | event :: events, s =>
    (match event with
      | .command request turns =>
        ∀ receipt, (command resourceId request turns s).1 ≠ ok (some receipt)
      | .close _ => True) ∧ Uncommitted resourceId events (step resourceId s event)

lemma intact_of_untouched (h : Untouched s.world) (hget : s.uploads.get resourceId = none) :
    Intact resourceId s := by
  rw [Intact, hget]
  exact h

lemma intact_dropUpload (h : Intact resourceId s) : Intact resourceId (dropUpload resourceId s) :=
  intact_of_untouched (dropUpload_untouched h).1 (dropUpload_untouched h).2

lemma intact_command {turns : List CallTurn} (hconcerns : Concerns resourceId request)
    (hturns : ∀ turn ∈ turns, turn.failure = none) (h : Intact resourceId s)
    (hcommit : ∀ receipt, (command resourceId request turns s).1 ≠ ok (some receipt)) :
    Intact resourceId (command resourceId request turns s).2 := by
  have hrun := triple_execute hconcerns _ (intact_withTurns hturns h)
  rw [command] at hcommit ⊢
  cases hexecute : execute request (withTurns turns s) with
  | mk outcome s' =>
    rw [hexecute] at hrun hcommit
    have hintact : Intact resourceId s' := by
      cases outcome with
      | panic => exact hrun.elim
      | err code => exact hrun
      | ok receipt =>
        refine hrun ?_
        cases receipt with
        | none => rfl
        | some receipt => exact absurd rfl (hcommit receipt)
    dsimp only
    split_ifs
    · exact intact_dropUpload hintact
    · exact hintact

lemma intact_step {event : StreamEvent} (hallowed : event.Allowed resourceId)
    (h : Intact resourceId s) (huncommitted : Uncommitted resourceId [event] s) :
    Intact resourceId (step resourceId s event) := by
  cases event with
  | command request turns =>
    exact intact_command hallowed.1 hallowed.2 h huncommitted.1
  | close turns => exact intact_dropUpload (intact_withTurns hallowed h)

/-- While no commit succeeds, the stream stays intact. -/
theorem intact_run {events : List StreamEvent} (hallowed : ∀ event ∈ events,
    event.Allowed resourceId) (h : Intact resourceId s)
    (huncommitted : Uncommitted resourceId events s) :
    Intact resourceId (events.foldl (step resourceId) s) := by
  induction events generalizing s with
  | nil => exact h
  | cons event events ih =>
    obtain ⟨hevent, hevents⟩ := List.forall_mem_cons.mp hallowed
    exact ih hevents (intact_step hevent h ⟨huncommitted.1, trivial⟩) huncommitted.2

/-! ### Opening -/

lemma triple_sys_world {α : Type} {P : World → Prop} {x : Sys α} {Q : α → World → Prop}
    {E : BrokerErrorCode → World → Prop} (h : Triple P x Q E) :
    Triple (fun s => P s.world) (sys x) (fun a s => Q a s.world) fun e s => E e s.world :=
  triple_weaken (triple_sys h fun _ => True) (fun _ h => ⟨h, trivial⟩) (fun _ _ h => h.1)
    fun _ _ h => h.1

lemma authorizeBegin_ne_panic : authorizeBegin request ≠ panic := by
  refine bind_ne_panic.mpr ⟨rejectIf_ne_panic, fun _ _ => bind_ne_panic.mpr
    ⟨FilesystemWrite.filesystemScope_ne_panic, fun _ _ => bind_ne_panic.mpr ⟨?_, fun _ _ => ?_⟩⟩⟩
  · exact ite_ne_panic (by simp) (ite_ne_panic (by simp) (ite_ne_panic (by simp) (by simp)))
  · refine bind_ne_panic.mpr ⟨rejectIf_ne_panic, fun _ _ => bind_ne_panic.mpr
      ⟨mapSchemaError_ne_panic (FilesystemWriteStream.decode_ne_panic _), fun _ _ => ?_⟩⟩
    exact bind_ne_panic.mpr ⟨FilesystemWrite.validateMountAndPath_ne_panic, fun _ _ =>
      bind_ne_panic.mpr ⟨rejectIf_ne_panic, fun _ _ => by simp⟩⟩

lemma isPlain_authorizeBegin {stream : FilesystemWriteStream} {operation : StreamOperation}
    (h : authorizeBegin request = ok (stream, operation)) :
    FilesystemWrite.IsPlain stream.path := by
  simp only [authorizeBegin, Outcome.bind_eq_ok] at h
  obtain ⟨_, _, scope, _, ⟨operation', required⟩, _, _, _, stream', _, _, hvalid, _, _, hpure⟩ := h
  cases hpure
  exact FilesystemWrite.isPlain_of_validate hvalid

lemma keeps_openTarget {operation : StreamOperation} {expectedBytes : ℕ}
    {scope : FilesystemWriteScope} :
    Keeps Untouched (openTarget operation target expectedBytes scope) := by
  have hopen := FilesystemWrite.keeps_openAtBeneath target
  have hvalidate := fun file maximum =>
    FilesystemWrite.keeps_validateRegularFile file maximum
  cases operation with
  | create => exact keeps_pure _
  | replace =>
    exact keeps_bind hopen fun _ => keeps_bind (hvalidate _ _) fun _ => keeps_pure _
  | append =>
    refine keeps_bind hopen fun _ => keeps_bind (hvalidate _ _) fun _ => ?_
    exact keeps_bind (keeps_lift okOr_ne_panic) fun _ =>
      keeps_bind (keeps_lift rejectIf_ne_panic) fun _ => keeps_pure _

/-- A stream that fails to open leaves nothing; one that opens is intact. -/
lemma triple_openStream (request : BoundRequest) {id : UInt64} (hid : id ≠ 0) :
    Triple (fun s => Untouched s.world) (openStream id request)
      (fun _ => Intact id.toNat) fun _ s => Untouched s.world := by
  refine triple_lift_bind authorizeBegin_ne_panic (fun _ _ _ h => h) fun begin hbegin => ?_
  obtain ⟨stream, operation⟩ := begin
  have hplain := isPlain_authorizeBegin hbegin
  refine triple_lift_bind FilesystemWrite.filesystemScope_ne_panic (fun _ _ _ h => h)
    fun scope _ => ?_
  refine triple_bind (triple_sys_world
    (FilesystemWrite.triple_openParent stable_untouched hplain)) fun target => ?_
  refine triple_assume fun htarget => ?_
  refine triple_bind (triple_sys_world keeps_openTarget) fun opened => ?_
  obtain ⟨expectedTarget, baseBytes⟩ := opened
  refine triple_bind (triple_sys_world (triple_temporaryName stable_untouched)) fun name => ?_
  refine triple_assume fun hname => ?_
  refine triple_bind (triple_sys_world (triple_createExclusive hname)) fun file => ?_
  refine triple_bind (Q := fun _ s => Staged ⟨target.directory, name⟩ file s.world)
    (triple_get _ fun s hs => hs) fun present => ?_
  split_ifs
  · -- the new upload is dropped at once
    refine triple_bind (Q := fun _ s => Untouched s.world) ?_ fun _ => triple_fail _ fun _ h => h
    exact triple_sys_world fun w hw => (unlink_staged hw).toUntouched
  · refine triple_bind (Q := fun _ => Intact id.toNat) (triple_modify fun s hs => ?_)
      fun _ => ?_
    · rw [Intact, BTreeMap.get_insert, if_pos rfl]
      exact ⟨rfl, htarget, .inl hs⟩
    · obtain ⟨bytes, hbytes⟩ := FilesystemWriteStreamOpened.encode_ok hid
      rw [hbytes]
      exact triple_pure () fun _ h => h

end WriteStreams

/-! ## What failures leave behind -/

lemma not_clean_of_leaves {kept : Prop} (h : FilesystemWrite.Leaves kept w) : w.Clean ↔ kept := by
  constructor
  · intro hclean
    by_contra hkept
    obtain ⟨temporary, file, hstaged⟩ := h.2 hkept
    exact hstaged.not_clean hclean
  · exact fun hkept => (h.1 hkept).clean

/-- A single request that fails leaves nothing behind exactly if its exchange, where it comes to
one, finds the target kept.  A stream that does not open, or that is closed without a
successful commit, leaves nothing behind. -/
theorem failed_writes_clean_iff (request : BoundRequest) :
    (∀ w, Untouched w →
      ((∀ code, (FilesystemWrite.execute request w).1 = err code →
          (FilesystemWrite.execute request w).2.Clean) ↔
        FilesystemWrite.KeptAtExchange request w)) ∧
    (∀ (s : WriteBroker) (id : UInt64) code, Untouched s.world → id ≠ 0 →
      (WriteStreams.openStream id request s).1 = err code →
        (WriteStreams.openStream id request s).2.world.Clean) ∧
    ∀ (s : WriteBroker) (id : UInt64) events turns, Untouched s.world → id ≠ 0 →
      (WriteStreams.openStream id request s).1 = ok () →
        (∀ event ∈ events, WriteStreams.StreamEvent.Allowed id.toNat event) →
          (∀ turn ∈ turns, turn.failure = none) →
            WriteStreams.Uncommitted id.toNat events (WriteStreams.openStream id request s).2 →
              (WriteStreams.step id.toNat (events.foldl (WriteStreams.step id.toNat)
                (WriteStreams.openStream id request s).2) (.close turns)).world.Clean := by
  refine ⟨fun w h => ?_, fun s id code h hid hrun => ?_,
    fun s id events turns h hid hrun hevents hturns huncommitted => ?_⟩
  · have hends := FilesystemWrite.execute_ends request h
    cases hrun : FilesystemWrite.execute request w with
    | mk outcome w' =>
      rw [hrun] at hends
      cases outcome with
      | panic => exact hends.elim
      | ok receipt =>
        refine ⟨fun _ => hends, fun _ code hcode => ?_⟩
        cases hcode
      | err code =>
        refine ⟨fun hclean => ?_, fun hkept code _ => ?_⟩
        · exact (not_clean_of_leaves hends).mp (hclean code rfl)
        · exact (not_clean_of_leaves hends).mpr hkept
  · have hopen := WriteStreams.triple_openStream request hid s h
    cases hopened : WriteStreams.openStream id request s with
    | mk outcome s' =>
      rw [hopened] at hopen hrun
      cases hrun
      exact Untouched.clean hopen
  · have hopen := WriteStreams.triple_openStream request hid s h
    cases hopened : WriteStreams.openStream id request s with
    | mk outcome s' =>
      rw [hopened] at hopen hrun huncommitted
      cases hrun
      have hintact := WriteStreams.intact_run hevents hopen huncommitted
      exact (WriteStreams.dropUpload_untouched
        (WriteStreams.intact_withTurns hturns hintact)).1.clean

/-! ## A target that is replaced while its successor is staged -/

def notesScope : FilesystemWriteScope :=
  ⟨.ofList [⟨"notes", none⟩], .ofList [.replace, .append], 4096, 65536⟩

def notesRequest (operation : String) (encoded : Outcome SchemaError (List UInt8)) :
    BoundRequest where
  capability := .filesystemWriteV1
  authorizedScope := .filesystemWrite notesScope
  activation := none
  operation := operation
  payload :=
    match encoded with
    | ok bytes => bytes
    | _ => []
  bindings :=
    { GrantBindings.default with
      filesystemMounts := BTreeMap.empty.insert "notes" (.path "/home/me/notes") }

/-- Replace the content of `todo.txt`. -/
def replaceTodo : BoundRequest :=
  notesRequest filesystemReplaceFileOperation
    (FilesystemWriteFile.encode ⟨"notes", "todo.txt", [7, 7]⟩)

/-- Append two bytes to a file in chunks. -/
def appendStream (path : String) : BoundRequest :=
  notesRequest filesystemAppendFileStreamOperation
    (FilesystemWriteStream.encode ⟨"notes", path, 2⟩)

def appendChunk : BoundRequest :=
  notesRequest filesystemWriteStreamChunkOperation
    (FilesystemWriteStreamChunk.encode ⟨1, 0, [7, 7]⟩)

def todo : Entry := ⟨1, "todo.txt"⟩

def notesFiles : Files where
  names := fun entry => if entry = todo then some 0 else none
  inodes := fun _ => ⟨true, 1, [1, 2, 3], 0, 0, false⟩

def notes (turns : List CallTurn) : World where
  files := notesFiles
  shadow := notesFiles
  nextFile := 1
  clock := 1
  renamed := false
  turns := turns
  mounts := fun _ => .ok 0
  directories := fun _ _ => .ok 1

/-- Another process saves `todo.txt` anew before the exchange. -/
def savedMeanwhile : List CallTurn :=
  List.replicate 11 .quiet ++ [{ CallTurn.quiet with external := [.replace todo true 1 [9] 5] }]

def todoTemporary : Entry := ⟨1, ".touchbar-00000000000000000000000000000000.tmp"⟩

lemma untouched_notes (turns : List CallTurn) (h : ∀ turn ∈ turns, turn.failure = none) :
    Untouched (notes turns) := by
  refine ⟨⟨fun e f hf => rfl, fun e f hf => ?_, h⟩, rfl⟩
  simp only [notes, notesFiles] at hf ⊢
  split_ifs at hf
  cases hf
  decide

/-- A replacement that nobody disturbs keeps its target; a stream whose target is missing does
not open; a stream that is closed after its chunk leaves nothing. -/
theorem failed_writes_clean_iff_notes :
    FilesystemWrite.KeptAtExchange replaceTodo (notes []) ∧
      (WriteStreams.openStream 1 (appendStream "done.txt")
        ⟨notes [], .empty⟩).2.world.Clean ∧
      (WriteStreams.step 1 (WriteStreams.step 1 (WriteStreams.openStream 1
        (appendStream "todo.txt") ⟨notes [], .empty⟩).2 (.command appendChunk []))
          (.close [])).world.Clean := by
  have huntouched := untouched_notes [] (by simp)
  refine ⟨((failed_writes_clean_iff replaceTodo).1 (notes []) huntouched).mp fun code hcode => ?_,
    (failed_writes_clean_iff (appendStream "done.txt")).2.1 ⟨notes [], .empty⟩ 1 .outOfScope
      huntouched (by decide) (by decide +kernel),
    (failed_writes_clean_iff (appendStream "todo.txt")).2.2 ⟨notes [], .empty⟩ 1
      [.command appendChunk []] [] huntouched (by decide) (by decide +kernel) ?_ (by simp)
      ⟨fun receipt hreceipt => ?_, trivial⟩⟩
  · have hok : (FilesystemWrite.execute replaceTodo (notes [])).1.isOk = true := by
      decide +kernel
    rw [hcode] at hok
    cases hok
  · rintro event hevent
    obtain rfl := List.mem_singleton.mp hevent
    refine ⟨fun n hn => ?_, by simp⟩
    have hone : WriteStreams.commandResource appendChunk = ok 1 := by decide +kernel
    rw [hone] at hn
    cases hn
    rfl
  · have hnone : (WriteStreams.command 1 appendChunk [] (WriteStreams.openStream 1
        (appendStream "todo.txt") ⟨notes [], .empty⟩).2).1 = ok none := by decide +kernel
    exact absurd (hnone.symm.trans hreceipt) (by simp)

/-- The request fails, and the staged file stays under its temporary name. -/
theorem replaced_target_leaves_temporary :
    (FilesystemWrite.execute replaceTodo (notes savedMeanwhile)).1 = err .backendFailed ∧
      ¬(FilesystemWrite.execute replaceTodo (notes savedMeanwhile)).2.Clean := by
  have hshadow : (FilesystemWrite.execute replaceTodo (notes savedMeanwhile)).2.shadow.names
      todoTemporary = none := by decide +kernel
  have hfiles : (FilesystemWrite.execute replaceTodo (notes savedMeanwhile)).2.files.names
      todoTemporary = some 1 := by decide +kernel
  refine ⟨by decide +kernel, fun hclean => ?_⟩
  rw [hclean.names, hshadow] at hfiles
  cases hfiles

end TouchBar.Supervisor
