import TouchBar.Supervisor.AuditFile

/-!
# Runs of appends

What an append finds on disk, what a rotation does to the slots, also when it is cut
short, and what every run of appends leaves: the active file and the archives hold the
last files of all that were ever written, with one growing sequence of numbers.
-/

namespace TouchBar.Supervisor.Audit

open TouchBar.Rust TouchBar.Lib Outcome

variable {δ : Type} {format : RecordFormat δ} {path : String} {limits : AuditFileLimits}
  {disk : Disk} {files : ℕ → Option (List (AuditRecord δ))} {appended : List (AuditRecord δ)}

/-! ## The record that comes next -/

/-- The record continues the sequence. -/
structure Next (appended : List (AuditRecord δ)) (record : AuditRecord δ) : Prop where
  positive : 1 ≤ record.sequence
  above : ∀ q ∈ appended, q.sequence < record.sequence
  follows : ∀ q ∈ appended.getLast?, record.sequence.toNat = q.sequence.toNat + 1

lemma le_getLast (h : appended.Pairwise fun a b => a.sequence < b.sequence)
    {last q : AuditRecord δ} (hlast : appended.getLast? = some last) (hq : q ∈ appended) :
    q.sequence ≤ last.sequence := by
  obtain ⟨front, rfl⟩ := List.getLast?_eq_some_iff.mp hlast
  obtain ⟨-, -, hbefore⟩ := List.pairwise_append.mp h
  rcases List.mem_append.mp hq with hq | hq
  · exact UInt64.le_of_lt (hbefore q hq last (by simp))
  · rw [List.mem_singleton.mp hq]
    exact UInt64.le_refl _

lemma Log.stamp_spec (hformat : format.Lawful) (h : Log format limits disk files appended)
    (path : String) (record : AuditRecord δ) :
    (stamp format limits path disk record =
        err (.invalid "durable audit sequence exhausted") ∧
      ∃ q ∈ appended, U64.size ≤ q.sequence.toNat + 1) ∨
    ∃ stamped, stamp format limits path disk record = ok stamped ∧ Next appended stamped ∧
      stamped.content = record.content := by
  rw [stamp, h.lastDurableSequence_eq hformat, ok_bind]
  cases hlast : appended.getLast? with
  | none =>
    rw [List.getLast?_eq_none_iff] at hlast
    refine .inr ⟨_, rfl, ⟨?_, ?_, ?_⟩, rfl⟩
    · show 1 ≤ if record.sequence ≤ 1 then 1 else record.sequence
      split_ifs with hle
      · exact UInt64.le_refl _
      · exact UInt64.le_of_lt (UInt64.not_le.mp hle)
    · simp [hlast]
    · simp [hlast]
  | some last =>
    dsimp only [Option.map_some]
    split_ifs with hroom
    · have hsequence : (last.sequence + 1).toNat = last.sequence.toNat + 1 := by
        rw [UInt64.toNat_add]
        exact Nat.mod_eq_of_lt hroom
      refine .inr ⟨_, rfl, ⟨?_, fun q hq => ?_, fun q hq => ?_⟩, rfl⟩
      · show 1 ≤ last.sequence + 1
        rw [UInt64.le_iff_toNat_le, hsequence]
        exact Nat.le_add_left ..
      · have hle := le_getLast h.increasing hlast hq
        show q.sequence < last.sequence + 1
        rw [UInt64.lt_iff_toNat_lt, hsequence]
        exact Nat.lt_succ_of_le (UInt64.le_iff_toNat_le.mp hle)
      · rw [hlast] at hq
        obtain rfl := Option.some.inj hq
        exact hsequence
    · exact .inl ⟨rfl, last, List.mem_of_getLast? hlast, not_lt.mp hroom⟩

/-- The operations after the active file is open. -/
def appendOps (format : RecordFormat δ) (limits : AuditFileLimits) (disk : Disk)
    (record : AuditRecord δ) (age : Option ℕ) : List FileOp :=
  (if shouldRotate limits ((disk 0).getD []).length (encodeLine format record).length age then
    rotate limits ++ [.create] else []) ++ [.write (encodeLine format record)]

/-- An append goes wrong only because the record is too long or the numbers are used up. -/
lemma Log.plan_spec (hformat : format.Lawful) (h : Log format limits disk files appended)
    (record : AuditRecord δ) (age : Option ℕ) :
    (plan format limits path disk record age =
        err (.invalid "durable audit sequence exhausted") ∧
      ∃ q ∈ appended, U64.size ≤ q.sequence.toNat + 1) ∨
    ∃ stamped, Next appended stamped ∧ stamped.content = record.content ∧
      ((plan format limits path disk record age =
          err (.invalid "one audit record exceeds the file size limit") ∧
        limits.maximumBytes < (encodeLine format stamped).length) ∨
      (plan format limits path disk record age =
          ok (stamped, appendOps format limits disk stamped age) ∧
        (encodeLine format stamped).length ≤ limits.maximumBytes)) := by
  rcases h.stamp_spec hformat path record with ⟨hstamp, hfull⟩ | ⟨stamped, hstamp, hnext, hcontent⟩
  · exact .inl ⟨by rw [plan, hstamp]; rfl, hfull⟩
  · rw [plan, hstamp, ok_bind]
    dsimp only
    split_ifs with hlong hrotate
    · exact .inr ⟨stamped, hnext, hcontent, .inl ⟨rfl, hlong⟩⟩
    · refine .inr ⟨stamped, hnext, hcontent, .inr ⟨?_, not_lt.mp hlong⟩⟩
      rw [appendOps, if_pos hrotate, List.append_assoc]
      rfl
    · refine .inr ⟨stamped, hnext, hcontent, .inr ⟨?_, not_lt.mp hlong⟩⟩
      rw [appendOps, if_neg hrotate]
      rfl

/-! ## Rotations -/

section Shifted

variable {α β : Type}

/-- The slots after `k` of the moves of a rotation: those from `m - k` on have moved up, and
the last of them is gone. -/
def shifted (m k : ℕ) (g : ℕ → Option α) : ℕ → Option α := fun i =>
  if i < m - k then g i else if i = m - k then none else if i ≤ m then g (i - 1) else g i

lemma shifted_rel {r : α → β → Prop} {g : ℕ → Option α} {g' : ℕ → Option β}
    (h : ∀ i, Option.Rel r (g i) (g' i)) (m k i : ℕ) :
    Option.Rel r (shifted m k g i) (shifted m k g' i) := by
  rw [shifted, shifted]
  split_ifs
  · exact h i
  · exact .none
  · exact h (i - 1)
  · exact h i

end Shifted

/-- The archives are removed and moved in the order of their numbers, the active file last. -/
lemma rotate_eq (limits : AuditFileLimits) :
    rotate limits = .remove limits.maximumArchives ::
      (List.range limits.maximumArchives).reverse.map .rename := by
  rw [rotate]
  split_ifs with hzero
  · rw [hzero]
    rfl
  · obtain ⟨m, hm⟩ := Nat.exists_eq_succ_of_ne_zero hzero
    rw [hm, List.range_eq_range', List.range'_succ, List.reverse_cons, List.map_append]
    rfl

lemma applyAll_append (disk : Disk) (ops ops' : List FileOp) :
    applyAll disk (ops ++ ops') = applyAll (applyAll disk ops) ops' :=
  List.foldl_append

lemma take_reverse_range {m k : ℕ} (hk : k < m) :
    (List.range m).reverse.take (k + 1) = (List.range m).reverse.take k ++ [m - 1 - k] := by
  rw [List.take_add_one, List.getElem?_reverse (by simpa using hk), List.length_range,
    List.getElem?_range (by omega)]
  rfl

/-- What a rotation has done after the removal and `k` moves. -/
lemma applyAll_rotate_take (limits : AuditFileLimits) (disk : Disk) {k : ℕ}
    (hk : k ≤ limits.maximumArchives) :
    applyAll disk ((rotate limits).take (k + 1)) = shifted limits.maximumArchives k disk := by
  rw [rotate_eq, List.take_succ_cons, ← List.map_take]
  induction k with
  | zero =>
    funext i
    show Function.update disk limits.maximumArchives none i = _
    rw [shifted, Function.update_apply, Nat.sub_zero]
    split_ifs <;> first | rfl | omega
  | succ k ih =>
    have hlast : applyAll disk (.remove limits.maximumArchives ::
        ((List.range limits.maximumArchives).reverse.take (k + 1)).map .rename) =
        FileOp.apply (shifted limits.maximumArchives k disk)
          (.rename (limits.maximumArchives - 1 - k)) := by
      rw [take_reverse_range hk, List.map_append, ← List.cons_append, applyAll_append,
        ih (Nat.le_of_succ_le hk)]
      rfl
    rw [hlast]
    obtain ⟨j, hj⟩ : ∃ j, j = limits.maximumArchives - 1 - k := ⟨_, rfl⟩
    have hhere : shifted limits.maximumArchives k disk j = disk j := by
      rw [shifted, if_pos (by omega)]
    have hnext : shifted limits.maximumArchives k disk (j + 1) = none := by
      rw [shifted, if_neg (by omega), if_pos (by omega)]
    rw [← hj]
    funext i
    rw [FileOp.apply]
    cases hdisk : disk j with
    | none =>
      rw [hhere, hdisk]
      dsimp only
      by_cases hi : i = j
      · rw [hi, hhere, hdisk, shifted, if_neg (by omega), if_pos (by omega)]
      · by_cases hi' : i = j + 1
        · rw [hi', hnext, shifted, if_neg (by omega), if_neg (by omega), if_pos (by omega),
            Nat.add_sub_cancel, hdisk]
        · simp only [shifted]
          split_ifs <;> first | rfl | omega
    | some file =>
      rw [hhere, hdisk]
      dsimp only
      rw [Function.update_apply, Function.update_apply]
      by_cases hi : i = j
      · rw [if_pos hi, hi, shifted, if_neg (by omega), if_pos (by omega)]
      · rw [if_neg hi]
        by_cases hi' : i = j + 1
        · rw [if_pos hi', hi', shifted, if_neg (by omega), if_neg (by omega), if_pos (by omega),
            Nat.add_sub_cancel, hdisk]
        · rw [if_neg hi']
          simp only [shifted]
          split_ifs <;> first | rfl | omega

/-! ## What the operations do to the records -/

/-- The slots after the active file is opened. -/
def opened (files : ℕ → Option (List (AuditRecord δ))) : ℕ → Option (List (AuditRecord δ)) :=
  Function.update files 0 (some ((files 0).getD []))

lemma create_apply (disk : Disk) :
    FileOp.create.apply disk = Function.update disk 0 (some ((disk 0).getD [])) := by
  rw [FileOp.apply]
  cases hdisk : disk 0 with
  | none => rfl
  | some bytes =>
    rw [if_neg (by simp), Option.getD_some, ← hdisk, Function.update_eq_self]

lemma lastOf_opened (files : ℕ → Option (List (AuditRecord δ))) :
    lastOf (opened files) = lastOf files := by
  funext i
  rw [lastOf, lastOf, opened, Function.update_apply]
  split_ifs with hi
  · rw [hi]
    cases files 0 <;> rfl
  · rfl

namespace Shelf

lemma create (h : Shelf format limits disk files appended) :
    Shelf format limits (FileOp.create.apply disk) (opened files) appended where
  slots i := by
    rw [create_apply, opened, Function.update_apply, Function.update_apply]
    split_ifs
    · have hslot := h.slots 0
      cases hdisk : disk 0 with
      | none =>
        rw [hdisk] at hslot
        cases hfiles : files 0 with
        | none => exact .some (.inl rfl)
        | some file => rw [hfiles] at hslot; cases hslot
      | some bytes =>
        rw [hdisk] at hslot
        cases hfiles : files 0 with
        | none => rw [hfiles] at hslot; cases hslot
        | some file => rw [hfiles] at hslot; exact hslot
    · exact h.slots i
  beyond i hi := by
    rw [opened, Function.update_of_ne (by omega)]
    exact h.beyond i hi
  increasing := h.increasing
  positive := h.positive
  inside i file hfile := by
    rw [opened, Function.update_apply] at hfile
    split_ifs at hfile
    · cases hzero : files 0 with
      | none =>
        rw [hzero] at hfile
        obtain rfl := Option.some.inj hfile
        exact List.nil_infix
      | some active =>
        rw [hzero] at hfile
        obtain rfl := Option.some.inj hfile
        exact h.inside 0 _ hzero
    · exact h.inside i file hfile
  active file hfile := by
    rw [opened, Function.update_self] at hfile
    obtain rfl := Option.some.inj hfile
    cases hzero : files 0 with
    | none => exact List.nil_suffix
    | some active => exact h.active active hzero

lemma shifted (h : Shelf format limits disk files appended) {k : ℕ} :
    Shelf format limits (shifted limits.maximumArchives k disk)
      (shifted limits.maximumArchives k files) appended where
  slots := shifted_rel h.slots _ _
  beyond i hi := by
    rw [Audit.shifted, if_neg (by omega), if_neg (by omega), if_neg (by omega)]
    exact h.beyond i hi
  increasing := h.increasing
  positive := h.positive
  inside i file hfile := by
    rw [Audit.shifted] at hfile
    split_ifs at hfile
    · exact h.inside i file hfile
    · exact h.inside (i - 1) file hfile
    · exact h.inside i file hfile
  active file hfile := by
    rw [Audit.shifted] at hfile
    split_ifs at hfile
    · exact h.active file hfile
    · exfalso
      omega
    · exact h.active file hfile

end Shelf

lemma Log.create (h : Log format limits disk files appended) :
    Log format limits (FileOp.create.apply disk) (opened files) appended where
  toShelf := h.toShelf.create
  newest := by
    rw [lastOf_opened]
    exact h.newest

/-- Where the active file has a record, the moves keep the last one in front. -/
lemma Log.shifted (h : Log format limits disk files appended) {record : AuditRecord δ} {k : ℕ}
    (hactive : lastOf files 0 = some record) (hpos : 0 < limits.maximumArchives) :
    Log format limits (Audit.shifted limits.maximumArchives k disk)
      (Audit.shifted limits.maximumArchives k files) appended where
  toShelf := h.toShelf.shifted
  newest := by
    obtain ⟨m, hm⟩ := Nat.exists_eq_succ_of_ne_zero hpos.ne'
    have hrange : List.range (limits.maximumArchives + 1) = 0 :: 1 :: List.range' 2 m := by
      rw [hm, List.range_eq_range', List.range'_succ, List.range'_succ]
    rw [← h.newest, hrange, List.findSome?_cons, List.findSome?_cons, List.findSome?_cons, hactive]
    by_cases hk : k < limits.maximumArchives
    · -- the active file is still in its place
      have hzero : lastOf (Audit.shifted limits.maximumArchives k files) 0 = some record := by
        rw [lastOf, Audit.shifted, if_pos (by omega)]
        exact hactive
      rw [hzero]
    · have hzero : lastOf (Audit.shifted limits.maximumArchives k files) 0 = none := by
        rw [lastOf, Audit.shifted, if_neg (by omega), if_pos (by omega)]
        rfl
      have hone : lastOf (Audit.shifted limits.maximumArchives k files) 1 = some record := by
        rw [lastOf, Audit.shifted, if_neg (by omega), if_neg (by omega), if_pos (by omega)]
        exact hactive
      rw [hzero, hone]

/-- A line is written at the end of an active file whose lines are whole; its own end may be
missing. -/
lemma Shelf.write (h : Shelf format limits disk files appended)
    {active : List (AuditRecord δ)} {record : AuditRecord δ} {bytes : List UInt8}
    (hdisk : disk 0 = some (encodeFile format active)) (hfiles : files 0 = some active)
    (hnext : Next appended record) (hbytes : Holds format bytes [record]) :
    Log format limits (FileOp.apply disk (.write bytes))
      (Function.update files 0 (some (active ++ [record]))) (appended ++ [record]) where
  slots i := by
    rw [FileOp.apply, hdisk, Option.getD_some, Function.update_apply, Function.update_apply]
    split_ifs
    · refine .some ?_
      rw [Holds, encodeFile_append, List.append_assoc]
      exact hbytes.imp (congrArg _) (congrArg _)
    · exact h.slots i
  beyond i hi := by
    rw [Function.update_of_ne (by omega)]
    exact h.beyond i hi
  increasing := by
    rw [List.pairwise_append]
    refine ⟨h.increasing, List.pairwise_singleton _ _, fun q hq r hr => ?_⟩
    rw [List.mem_singleton.mp hr]
    exact hnext.above q hq
  positive q hq := by
    rcases List.mem_append.mp hq with hq | hq
    · exact h.positive q hq
    · rw [List.mem_singleton.mp hq]
      exact hnext.positive
  inside i file hfile := by
    rw [Function.update_apply] at hfile
    split_ifs at hfile
    · obtain rfl := Option.some.inj hfile
      obtain ⟨front, hfront⟩ := h.active active hfiles
      exact ⟨front, [], by rw [← hfront]; simp⟩
    · exact (h.inside i file hfile).trans (List.prefix_append _ _).isInfix
  active file hfile := by
    rw [Function.update_self] at hfile
    obtain rfl := Option.some.inj hfile
    obtain ⟨front, hfront⟩ := h.active active hfiles
    exact ⟨front, by rw [← hfront]; simp⟩
  newest := by
    rw [List.range_eq_range', List.range'_succ, List.findSome?_cons, lastOf, Function.update_self]
    simp

/-! ## One append -/

/-- The lines of the active file are whole. -/
def Whole (format : RecordFormat δ) (disk : Disk) (files : ℕ → Option (List (AuditRecord δ))) :
    Prop :=
  ∀ active, files 0 = some active → disk 0 = some (encodeFile format active)

/-- The slots after an append. -/
def afterAppend (limits : AuditFileLimits) (files : ℕ → Option (List (AuditRecord δ)))
    (rotates : Bool) (record : AuditRecord δ) : ℕ → Option (List (AuditRecord δ)) :=
  if rotates then
    Function.update (shifted limits.maximumArchives limits.maximumArchives files) 0 (some [record])
  else Function.update files 0 (some ((files 0).getD [] ++ [record]))

lemma shifted_zero {α : Type} (m : ℕ) (g : ℕ → Option α) : shifted m m g 0 = none := by
  rw [shifted, if_neg (by omega), if_pos (by omega)]

lemma applyAll_rotate (limits : AuditFileLimits) (disk : Disk) :
    applyAll disk (rotate limits) =
      shifted limits.maximumArchives limits.maximumArchives disk := by
  rw [← applyAll_rotate_take limits disk le_rfl, List.take_of_length_le]
  rw [rotate_eq]
  simp

/-- Writing after a rotation starts a new file. -/
lemma Shelf.rotate_write (h : Shelf format limits disk files appended)
    {record : AuditRecord δ} {bytes : List UInt8} (hnext : Next appended record)
    (hbytes : Holds format bytes [record]) :
    Log format limits (applyAll disk (rotate limits ++ [.create, .write bytes]))
      (afterAppend limits files true record) (appended ++ [record]) := by
  have hmoved : Shelf format limits (FileOp.create.apply (Audit.shifted
      limits.maximumArchives limits.maximumArchives disk)) (opened (Audit.shifted
        limits.maximumArchives limits.maximumArchives files)) appended := h.shifted.create
  have hdisk : FileOp.create.apply (Audit.shifted limits.maximumArchives
      limits.maximumArchives disk) 0 = some (encodeFile format []) := by
    rw [create_apply, Function.update_self, shifted_zero]
    rfl
  have hfiles : opened (Audit.shifted limits.maximumArchives limits.maximumArchives
      files) 0 = some [] := by
    rw [opened, Function.update_self, shifted_zero]
    rfl
  have hwrite := hmoved.write hdisk hfiles hnext hbytes
  rw [applyAll_append, applyAll_rotate]
  rw [opened, Function.update_idem] at hwrite
  exact hwrite

/-- Whether an append rotates. -/
def rotates (format : RecordFormat δ) (limits : AuditFileLimits) (disk : Disk)
    (record : AuditRecord δ) (age : Option ℕ) : Bool :=
  shouldRotate limits ((disk 0).getD []).length (encodeLine format record).length age

lemma appendOps_eq (record : AuditRecord δ) (age : Option ℕ) :
    appendOps format limits disk record age =
      if rotates format limits disk record age then
        rotate limits ++ [.create, .write (encodeLine format record)]
      else [.write (encodeLine format record)] := by
  rw [appendOps, rotates]
  split_ifs
  · rw [List.append_assoc]
    rfl
  · rfl

/-- What an append leaves whose line may lack its end.  Only where it does not rotate does the
active file have to end with a whole line. -/
lemma Shelf.append (h : Shelf format limits disk files appended) (hopen : (files 0).isSome)
    {record : AuditRecord δ} {bytes : List UInt8} (hnext : Next appended record)
    (hbytes : Holds format bytes [record]) {rotates : Bool}
    (hwhole : rotates = false → Whole format disk files) :
    Log format limits
      (applyAll disk (if rotates then rotate limits ++ [.create, .write bytes]
        else [.write bytes]))
      (afterAppend limits files rotates record) (appended ++ [record]) := by
  obtain ⟨active, hactive⟩ := Option.isSome_iff_exists.mp hopen
  cases rotates with
  | true => exact h.rotate_write hnext hbytes
  | false =>
    rw [afterAppend, if_neg Bool.false_ne_true, if_neg Bool.false_ne_true, hactive]
    exact h.write (hwhole rfl active hactive) hactive hnext hbytes

/-- What an append leaves. -/
lemma Log.append (h : Log format limits disk files appended)
    (hopen : (files 0).isSome) {record : AuditRecord δ} (hnext : Next appended record)
    (age : Option ℕ)
    (hwhole : rotates format limits disk record age = false → Whole format disk files) :
    Log format limits (applyAll disk (appendOps format limits disk record age))
      (afterAppend limits files (rotates format limits disk record age) record)
      (appended ++ [record]) := by
  rw [appendOps_eq]
  exact h.toShelf.append hopen hnext (.inl (encodeFile_singleton record).symm) hwhole

/-! ## Every run -/

/-- The last files of all that were ever written, the newest first. -/
def slotsOf (limits : AuditFileLimits) (shelf : List (List (AuditRecord δ))) :
    ℕ → Option (List (AuditRecord δ)) :=
  fun i => if i ≤ limits.maximumArchives then shelf[i]? else none

/-- After a run: what was appended is the contents of all files, and the slots hold the last
ones. -/
structure Kept (format : RecordFormat δ) (limits : AuditFileLimits) (sink : AuditSink δ)
    (active : List (AuditRecord δ)) (shelf : List (List (AuditRecord δ))) : Prop where
  log : Log format limits sink.disk (slotsOf limits (active :: shelf)) sink.appended
  exact : ∀ i, sink.disk i = (slotsOf limits (active :: shelf) i).map (encodeFile format)
  all : sink.appended = (active :: shelf).reverse.flatten
  consecutive : sink.appended.IsChain fun a b => b.sequence.toNat = a.sequence.toNat + 1
  fits : (encodeFile format active).length ≤ limits.maximumBytes

lemma isChain_append_next {record : AuditRecord δ}
    (h : appended.IsChain fun a b => b.sequence.toNat = a.sequence.toNat + 1)
    (hnext : Next appended record) :
    (appended ++ [record]).IsChain fun a b => b.sequence.toNat = a.sequence.toNat + 1 := by
  rw [List.isChain_append]
  refine ⟨h, List.isChain_singleton _, fun q hq r hr => ?_⟩
  obtain rfl := Option.some.inj hr
  exact hnext.follows q hq

lemma fits_of_not_rotates {length appendBytes : ℕ} {age : Option ℕ} (hpos : 0 < length)
    (h : shouldRotate limits length appendBytes age = false) :
    length + appendBytes ≤ limits.maximumBytes := by
  rw [shouldRotate, Bool.and_eq_false_iff, decide_eq_false_iff_not] at h
  rcases h with hzero | h
  · exact absurd hpos hzero
  · rw [Bool.or_eq_false_iff] at h
    cases hadd : U64.add length appendBytes with
    | none => simp [hadd] at h
    | some total =>
      rw [hadd, decide_eq_false_iff_not, not_lt] at h
      obtain ⟨-, rfl⟩ := U64.add_eq_some.mp hadd
      exact h.1

lemma length_le_of_not_rotates {length appendBytes : ℕ} {age : Option ℕ}
    (h : shouldRotate limits length appendBytes age = false)
    (hle : appendBytes ≤ limits.maximumBytes) : length + appendBytes ≤ limits.maximumBytes := by
  rcases Nat.eq_zero_or_pos length with rfl | hpos
  · rwa [Nat.zero_add]
  · exact fits_of_not_rotates hpos h

lemma create_of_isSome (h : (disk 0).isSome) : FileOp.create.apply disk = disk := by
  rw [FileOp.apply, if_neg (by simpa [Option.isSome_iff_ne_none] using h)]

lemma slotsOf_rotated (active : List (AuditRecord δ)) (shelf : List (List (AuditRecord δ)))
    (record : AuditRecord δ) :
    afterAppend limits (slotsOf limits (active :: shelf)) true record =
      slotsOf limits ([record] :: active :: shelf) := by
  rw [afterAppend, if_pos rfl]
  funext i
  cases i with
  | zero => rfl
  | succ i =>
    rw [Function.update_of_ne (Nat.succ_ne_zero i), shifted, if_neg (by omega), if_neg (by omega)]
    simp only [slotsOf]
    split_ifs <;> first | rfl | omega

lemma slotsOf_extended (active : List (AuditRecord δ)) (shelf : List (List (AuditRecord δ)))
    (record : AuditRecord δ) :
    afterAppend limits (slotsOf limits (active :: shelf)) false record =
      slotsOf limits ((active ++ [record]) :: shelf) := by
  rw [afterAppend, if_neg Bool.false_ne_true]
  funext i
  cases i with
  | zero => rfl
  | succ i => rfl

namespace Kept

variable {sink : AuditSink δ} {active : List (AuditRecord δ)}
  {shelf : List (List (AuditRecord δ))}

lemma disk_zero (h : Kept format limits sink active shelf) :
    sink.disk 0 = some (encodeFile format active) := h.exact 0

lemma create (h : Kept format limits sink active shelf) :
    FileOp.create.apply sink.disk = sink.disk :=
  create_of_isSome (by rw [h.disk_zero]; rfl)

/-- The files after an append, exactly. -/
lemma exact_append (h : Kept format limits sink active shelf) (record : AuditRecord δ)
    (age : Option ℕ) (i : ℕ) :
    applyAll sink.disk (appendOps format limits sink.disk record age) i =
      (afterAppend limits (slotsOf limits (active :: shelf))
        (rotates format limits sink.disk record age) record i).map (encodeFile format) := by
  rw [appendOps_eq]
  cases hrotates : rotates format limits sink.disk record age with
  | true =>
    have hmoved : applyAll sink.disk (rotate limits ++
        [.create, .write (encodeLine format record)]) = Function.update
          (shifted limits.maximumArchives limits.maximumArchives sink.disk) 0
          (some (encodeLine format record)) := by
      rw [applyAll_append, applyAll_rotate]
      show FileOp.apply (FileOp.create.apply _) (.write _) = _
      rw [create_apply, FileOp.apply, Function.update_self, Function.update_idem, shifted_zero]
      rfl
    rw [if_pos rfl, hmoved, afterAppend, if_pos rfl, Function.update_apply, Function.update_apply]
    split_ifs
    · rw [Option.map_some, encodeFile_singleton]
    · rw [shifted, shifted]
      split_ifs
      · exact h.exact i
      · rfl
      · exact h.exact (i - 1)
      · exact h.exact i
  | false =>
    rw [if_neg Bool.false_ne_true, afterAppend, if_neg Bool.false_ne_true]
    show FileOp.apply sink.disk (.write _) i = _
    rw [FileOp.apply, h.disk_zero, Function.update_apply, Function.update_apply]
    split_ifs
    · rw [Option.map_some, encodeFile_append, encodeFile_singleton]
      rfl
    · exact h.exact i

/-- An append that succeeds keeps the files in order. -/
lemma append (h : Kept format limits sink active shelf) {record : AuditRecord δ}
    (hnext : Next sink.appended record)
    (hlength : (encodeLine format record).length ≤ limits.maximumBytes) (age : Option ℕ)
    (rotations : ℕ) :
    ∃ active' shelf', Kept format limits
      ⟨applyAll sink.disk (appendOps format limits sink.disk record age),
        sink.appended ++ [record], rotations⟩ active' shelf' := by
  have hwhole : Whole format sink.disk (slotsOf limits (active :: shelf)) := by
    intro file hfile
    obtain rfl := Option.some.inj (show some active = some file from hfile)
    exact h.disk_zero
  have hlog := h.log.append rfl hnext age fun _ => hwhole
  have hexact := h.exact_append record age
  cases hrotates : rotates format limits sink.disk record age with
  | true =>
    rw [hrotates, slotsOf_rotated] at hlog hexact
    refine ⟨[record], active :: shelf, hlog, hexact, ?_, isChain_append_next h.consecutive hnext,
      ?_⟩
    · show sink.appended ++ [record] = _
      rw [h.all, List.reverse_cons (a := [record]), List.flatten_append]
      simp
    · rwa [encodeFile_singleton]
  | false =>
    rw [hrotates, slotsOf_extended] at hlog hexact
    refine ⟨active ++ [record], shelf, hlog, hexact, ?_, isChain_append_next h.consecutive hnext,
      ?_⟩
    · show sink.appended ++ [record] = _
      rw [h.all]
      simp
    · rw [rotates, h.disk_zero, Option.getD_some] at hrotates
      rw [encodeFile_append, encodeFile_singleton, List.length_append]
      exact length_le_of_not_rotates hrotates hlength

lemma step (hformat : format.Lawful) (h : Kept format limits sink active shelf) (path : String)
    (call : AuditCall δ) :
    ∃ active' shelf', Kept format limits (sink.step format limits path call) active' shelf' := by
  cases call with
  | new =>
    refine ⟨active, shelf, ?_⟩
    have hdisk : applyAll sink.disk [.create] = sink.disk := h.create
    rw [AuditSink.step, operations, appendedBy, hdisk, List.append_nil]
    exact ⟨h.log, h.exact, h.all, h.consecutive, h.fits⟩
  | append record age =>
    rw [AuditSink.step, operations, appendedBy, h.create]
    show ∃ active' shelf', Kept format limits
      ⟨applyAll (FileOp.create.apply sink.disk) _, _, _⟩ active' shelf'
    rw [h.create]
    rcases h.log.plan_spec hformat record age with
      ⟨hplan, -⟩ | ⟨stamped, hnext, -, ⟨hplan, -⟩ | ⟨hplan, hlength⟩⟩
    · rw [hplan]
      refine ⟨active, shelf, ?_⟩
      simp only [applyAll, List.foldl_nil, List.append_nil]
      exact ⟨h.log, h.exact, h.all, h.consecutive, h.fits⟩
    · rw [hplan]
      refine ⟨active, shelf, ?_⟩
      simp only [applyAll, List.foldl_nil, List.append_nil]
      exact ⟨h.log, h.exact, h.all, h.consecutive, h.fits⟩
    · rw [hplan]
      exact h.append hnext hlength age _

end Kept

lemma kept_new {sink : AuditSink δ} (h : AuditSink.new limits = ok sink) :
    Kept format limits sink [] [] := by
  rw [AuditSink.new] at h
  split_ifs at h
  obtain rfl := Outcome.ok.inj h
  have hslots : ∀ i, slotsOf limits [([] : List (AuditRecord δ))] i =
      if i = 0 then some [] else none := by
    intro i
    rw [slotsOf]
    cases i with
    | zero => rfl
    | succ i => simp
  have hexact : ∀ i, FileOp.create.apply (fun _ => none) i =
      (slotsOf limits [([] : List (AuditRecord δ))] i).map (encodeFile format) := by
    intro i
    rw [hslots, create_apply, Function.update_apply]
    split_ifs <;> rfl
  refine ⟨⟨⟨fun i => ?_, fun i hi => ?_, .nil, by simp, fun i file hfile => ?_,
    fun file hfile => ?_⟩, ?_⟩, hexact, rfl, .nil, Nat.zero_le _⟩
  · show Option.Rel _ (FileOp.create.apply (fun _ => none) i) _
    rw [hexact, hslots]
    split_ifs
    · exact .some (.inl rfl)
    · exact .none
  · rw [hslots, if_neg (by omega)]
  · rw [hslots] at hfile
    split_ifs at hfile
    obtain rfl := Option.some.inj hfile
    exact List.nil_infix
  · obtain rfl := Option.some.inj (show some [] = some file from hfile)
    exact List.nil_suffix
  · refine List.findSome?_eq_none_iff.mpr fun i _ => ?_
    rw [lastOf, hslots]
    split_ifs <;> rfl

lemma kept_run (hformat : format.Lawful) {sink : AuditSink δ}
    (hnew : AuditSink.new limits = ok sink) (path : String) (calls : List (AuditCall δ)) :
    ∃ active shelf, Kept format limits
      (run (AuditSink.step format limits path) sink calls) active shelf :=
  run_invariant (P := fun s => ∃ active shelf, Kept format limits s active shelf)
    (fun _ call ⟨_, _, h⟩ => h.step hformat path call) ⟨[], [], kept_new hnew⟩ calls

/-! ## Reading the files back -/

/-- The records on the lines of a file. -/
def readRecords (format : RecordFormat δ) :
    List (List UInt8) → Outcome AuditFileError (List (AuditRecord δ))
  | [] => ok []
  | line :: lines => do
    let record ← format.decode line
    let records ← readRecords format lines
    return record :: records

/-- The records in some slots, one slot after the other. -/
def readSlots (format : RecordFormat δ) (disk : Disk) :
    List ℕ → Outcome AuditFileError (List (AuditRecord δ))
  | [] => ok []
  | index :: indices => do
    let records ← readRecords format (lines ((disk index).getD []))
    let more ← readSlots format disk indices
    return records ++ more

/-- The archives from the oldest to the newest, and then the active file. -/
def readRetained (format : RecordFormat δ) (limits : AuditFileLimits) (disk : Disk) :
    Outcome AuditFileError (List (AuditRecord δ)) :=
  readSlots format disk (List.range (limits.maximumArchives + 1)).reverse

lemma readRecords_encoded (hformat : format.Lawful) (records : List (AuditRecord δ)) :
    readRecords format (records.map format.encode) = ok records := by
  induction records with
  | nil => rfl
  | cons record records ih =>
    rw [List.map_cons, readRecords, hformat.decode_encode, ok_bind, ih]
    rfl

lemma readSlots_eq (hformat : format.Lawful)
    (hexact : ∀ i, disk i = (files i).map (encodeFile format)) (indices : List ℕ) :
    readSlots format disk indices = ok (indices.flatMap fun i => (files i).getD []) := by
  induction indices with
  | nil => rfl
  | cons index indices ih =>
    have hrecords : readRecords format (lines ((disk index).getD [])) =
        ok ((files index).getD []) := by
      rw [hexact]
      cases files index with
      | none => rfl
      | some file =>
        have hlines := lines_of_holds hformat
          (.inl rfl : Holds format (encodeFile format file) file)
        rw [Option.map_some, Option.getD_some, hlines]
        exact readRecords_encoded hformat file
    rw [readSlots, hrecords, ok_bind, ih]
    rfl

lemma flatMap_reverse_range {α : Type} (shelf : List (List α)) (n : ℕ) :
    ((List.range n).reverse.flatMap fun i => (shelf[i]?).getD []) =
      (shelf.take n).reverse.flatten := by
  induction n with
  | zero => rfl
  | succ n ih =>
    rw [List.range_succ, List.reverse_append, List.reverse_singleton, List.singleton_append,
      List.flatMap_cons, ih, List.take_add_one, List.reverse_append, List.flatten_append]
    cases shelf[n]? <;> simp

/-- After any run of appends by any number of processes there are files, the newest first, so
that all that was appended are their records in order; the active file and the archives are the
newest of them, one in each slot, and there are no other archives; the numbers grow by one from
each record to the next; the retained files are read back; and the active file is not too long. -/
theorem retained_files (hformat : format.Lawful) {start : AuditSink δ}
    (hnew : AuditSink.new limits = ok start) (path : String) (calls : List (AuditCall δ)) :
    ∃ written : List (List (AuditRecord δ)),
      (run (AuditSink.step format limits path) start calls).appended =
        written.reverse.flatten ∧
      (∀ i, (run (AuditSink.step format limits path) start calls).disk i =
        if i ≤ limits.maximumArchives then (written[i]?).map (encodeFile format) else none) ∧
      (run (AuditSink.step format limits path) start calls).appended.IsChain
        (fun a b => b.sequence.toNat = a.sequence.toNat + 1) ∧
      readRetained format limits (run (AuditSink.step format limits path) start calls).disk =
        ok ((written.take (limits.maximumArchives + 1)).reverse.flatten) ∧
      ∀ bytes, (run (AuditSink.step format limits path) start calls).disk 0 = some bytes →
        bytes.length ≤ limits.maximumBytes := by
  obtain ⟨active, shelf, h⟩ := kept_run hformat hnew path calls
  refine ⟨active :: shelf, h.all, fun i => ?_, h.consecutive, ?_, fun bytes hbytes => ?_⟩
  · rw [h.exact, slotsOf]
    split_ifs <;> rfl
  · rw [readRetained, readSlots_eq hformat h.exact, ← flatMap_reverse_range]
    refine congrArg ok (List.flatMap_congr fun i hi => ?_)
    have hlt : i < limits.maximumArchives + 1 := by simpa using hi
    rw [slotsOf, if_pos (Nat.le_of_lt_succ hlt)]
  · rw [h.disk_zero] at hbytes
    obtain rfl := Option.some.inj hbytes
    exact h.fits

/-- Room for two records, and one archive. -/
def smallLimits : AuditFileLimits := ⟨700, 60, 1⟩

def sentCall : AuditCall Unit := .append ⟨1, ()⟩ none

/-- Five records: the first two are gone with their archive. -/
theorem retained_files_five :
    ∃ (start : AuditSink Unit) (written : List (List (AuditRecord Unit))),
      AuditSink.new smallLimits = ok start ∧
      (run (AuditSink.step sentFormat smallLimits "audit") start
        [sentCall, sentCall, sentCall, .new, sentCall, sentCall]).appended =
          written.reverse.flatten ∧
      ok ((written.take 2).reverse.flatten) =
        (ok [⟨3, ()⟩, ⟨4, ()⟩, ⟨5, ()⟩] : Outcome AuditFileError _) := by
  have hnew : AuditSink.new (δ := Unit) smallLimits = ok _ := rfl
  obtain ⟨written, happended, -, -, hread, -⟩ := retained_files sentFormat_lawful hnew "audit"
    [sentCall, sentCall, sentCall, .new, sentCall, sentCall]
  refine ⟨_, written, hnew, happended, hread.symm.trans ?_⟩
  decide +kernel

end TouchBar.Supervisor.Audit
