import TouchBar.Schema.Totality
import TouchBar.Supervisor.FilesystemWrite

/-!
# Rules for system calls

What a program of the broker does is followed through conditions that the external process
cannot break and that do not depend on the turns to come.  A system call needs such a
condition before it; where it fails the condition still holds.  The loops that write and copy
come with rules of their own, and with the proof that they end.
-/

namespace TouchBar.Supervisor

open TouchBar.Rust TouchBar.Lib TouchBar.Policy TouchBar.Schema Outcome

variable {w : World} {α β : Type}

/-! ## Turns -/

/-- Every system call to come succeeds. -/
def World.Succeeds (w : World) : Prop := ∀ turn ∈ w.turns, turn.failure = none

/-- A condition that the external process cannot break while it acts, and that passing turns
keep. -/
structure Stable (P : World → Prop) : Prop where
  interfere : ∀ w action, w.renamed = false → P w → P (w.interfere action)
  turns : ∀ w turn turns, w.turns = turn :: turns → P w → P { w with turns := turns }

namespace World

lemma interfere_turns (action : External) : (w.interfere action).turns = w.turns := by
  rw [interfere]
  split_ifs <;> rfl

lemma interfere_renamed (action : External) : (w.interfere action).renamed = w.renamed := by
  rw [interfere]
  split_ifs <;> rfl

end World

namespace Stable

variable {P P' : World → Prop}

lemma and (hP : Stable P) (hP' : Stable P') : Stable fun w => P w ∧ P' w where
  interfere w action hrenamed h :=
    ⟨hP.interfere w action hrenamed h.1, hP'.interfere w action hrenamed h.2⟩
  turns w turn turns hturns h :=
    ⟨hP.turns w turn turns hturns h.1, hP'.turns w turn turns hturns h.2⟩

lemma foldl_interfere (hP : Stable P) (actions : List External) (hrenamed : w.renamed = false)
    (h : P w) : P (actions.foldl World.interfere w) := by
  induction actions generalizing w with
  | nil => exact h
  | cons action actions ih =>
    exact ih (by rw [World.interfere_renamed, hrenamed]) (hP.interfere w action hrenamed h)

lemma nextTurn (hP : Stable P) (h : P w) : P w.nextTurn.2 := by
  rw [World.nextTurn]
  cases hturns : w.turns with
  | nil => exact h
  | cons turn turns =>
    have hnext := hP.turns w turn turns hturns h
    dsimp only
    split_ifs with hrenamed
    · exact hnext
    · exact hP.foldl_interfere _ (by simpa using hrenamed) hnext

end Stable

namespace World

lemma stable_succeeds : Stable Succeeds where
  interfere w action _ h := by
    rw [Succeeds, interfere_turns]
    exact h
  turns w turn turns hturns h t ht := h t (hturns ▸ List.mem_cons_of_mem _ ht)

lemma stable_turns_le (n : ℕ) : Stable fun w => w.turns.length ≤ n where
  interfere w action _ h := by rwa [interfere_turns]
  turns w turn turns hturns h := by
    rw [hturns] at h
    exact Nat.le_of_succ_le h

lemma failure_nextTurn (h : w.Succeeds) : w.nextTurn.1.failure = none := by
  rw [nextTurn]
  cases hturns : w.turns with
  | nil => rfl
  | cons turn turns => exact h turn (hturns ▸ List.mem_cons_self)

/-- A turn at which a call is interrupted is one of the turns that were to come. -/
lemma turns_nextTurn_lt (h : w.nextTurn.1.interrupted = true) :
    w.nextTurn.2.turns.length < w.turns.length := by
  rw [nextTurn] at h ⊢
  cases hturns : w.turns with
  | nil =>
    rw [hturns] at h
    cases h
  | cons turn turns =>
    dsimp only
    split_ifs with hrenamed
    · exact Nat.lt_succ_self _
    · refine Nat.lt_succ_of_le ((stable_turns_le turns.length).foldl_interfere _ ?_ (le_refl _))
      simpa using hrenamed

end World

namespace Sys

open Prog

variable {P : World → Prop} {Q : α → World → Prop} {E : BrokerErrorCode → World → Prop}

/-! ## Single calls -/

/-- A call: what holds after its turn decides what holds after it. -/
theorem triple_call_turn {act : CallTurn → World → Outcome BrokerErrorCode α × World}
    {I : CallTurn → World → Prop} (hturn : ∀ w, P w → I w.nextTurn.1 w.nextTurn.2)
    (hfail : ∀ turn w code, I turn w → turn.failure = some code → E code w)
    (hact : ∀ turn w, I turn w → Ends Q E (act turn w)) : Triple P (call act) Q E := by
  intro w hw
  have hI := hturn w hw
  unfold call
  dsimp only
  cases hfailure : w.nextTurn.1.failure with
  | some code => exact hfail _ _ code hI hfailure
  | none => exact hact _ _ hI

/-- A call under a stable condition. -/
lemma triple_call {act : CallTurn → World → Outcome BrokerErrorCode α × World} (hP : Stable P)
    (hfail : ∀ w code, P w → E code w)
    (hact : ∀ turn w, P w → Ends Q E (act turn w)) : Triple P (call act) Q E :=
  triple_call_turn (I := fun _ => P) (fun _ => hP.nextTurn) (fun _ w code hw _ => hfail w code hw)
    hact

/-- A call where no call fails. -/
lemma triple_call_succeeds {act : CallTurn → World → Outcome BrokerErrorCode α × World}
    (hP : Stable P) (hsucceeds : ∀ w, P w → w.Succeeds)
    (hact : ∀ turn w, P w → Ends Q E (act turn w)) : Triple P (call act) Q E := by
  refine triple_call_turn (I := fun turn w => P w ∧ turn.failure = none)
    (fun w hw => ⟨hP.nextTurn hw, World.failure_nextTurn (hsucceeds w hw)⟩) ?_
    fun turn w hw => hact turn w hw.1
  rintro turn w code ⟨-, hnone⟩ hsome
  rw [hnone] at hsome
  cases hsome

/-- A program that keeps a condition, whether it fails or not. -/
abbrev Keeps (P : World → Prop) (x : Sys α) : Prop := Triple P x (fun _ => P) fun _ => P

lemma keeps_bind {x : Sys α} {f : α → Sys β} (hx : Keeps P x) (hf : ∀ a, Keeps P (f a)) :
    Keeps P (x >>= f) := triple_bind hx hf

lemma keeps_pure (a : α) : Keeps P (pure a : Sys α) := triple_pure a fun _ h => h

lemma keeps_lift {o : Outcome BrokerErrorCode α} (h : o ≠ .panic) : Keeps P (Prog.lift o) :=
  triple_lift h (fun _ _ _ hs => hs) fun _ _ _ hs => hs

lemma keeps_of_triple {x : Sys α} (h : Triple P x (fun a w => P w ∧ Q a w) fun _ => P) :
    Keeps P x := triple_weaken h (fun _ hw => hw) (fun _ _ hw => hw.1) fun _ _ hw => hw

section Observing

variable (hP : Stable P)
include hP

lemma keeps_checkCancelled : Keeps P checkCancelled := by
  intro w hw
  have hnext := hP.nextTurn hw
  unfold checkCancelled
  dsimp only
  cases w.nextTurn.1.reason with
  | some code => exact hnext
  | none => exact hnext

lemma keeps_readClosed : Keeps P readClosed := fun _ hw => hP.nextTurn hw

lemma triple_temporaryName :
    Triple P temporaryName (fun name w => P w ∧ isReserved name = true) fun _ => P := by
  refine triple_call hP (fun _ _ hw => hw) fun turn w hw => ⟨hw, ?_⟩
  simp only [isReserved, Text.startsWith, internalNamePrefix, String.toList_append,
    List.append_assoc, List.isPrefixOf_iff_prefix]
  exact List.prefix_append _ _

lemma triple_openAtBeneath (entry : Entry) : Triple P (openAtBeneath entry)
    (fun file w => P w ∧ w.files.names entry = some file) fun _ => P := by
  refine triple_call hP (fun _ _ hw => hw) fun turn w hw => ?_
  cases hentry : w.files.names entry with
  | some file => exact ⟨hw, hentry⟩
  | none => exact hw

lemma triple_descriptorMetadata (file : ℕ) : Triple P (descriptorMetadata file)
    (fun metadata w => P w ∧ metadata = w.files.stat file) fun _ => P :=
  triple_call hP (fun _ _ hw => hw) fun _ _ hw => ⟨hw, rfl⟩

lemma keeps_openDirectory (find : World → Except BrokerErrorCode ℕ) :
    Keeps P (openDirectory find) := by
  refine triple_call hP (fun _ _ hw => hw) fun turn w hw => ?_
  cases find w with
  | ok directory => exact hw
  | error code => exact hw

lemma keeps_fdatasync (file : ℕ) : Keeps P (fdatasync file) :=
  triple_call hP (fun _ _ hw => hw) fun _ _ hw => hw

lemma keeps_syncDirectory (directory : ℕ) : Keeps P (syncDirectory directory) :=
  triple_call hP (fun _ _ hw => hw) fun _ _ hw => hw

/-- A file that is validated is regular, has one link and is not too long. -/
lemma triple_validateRegularFile (file maximum : ℕ) : Triple P (validateRegularFile file maximum)
    (fun metadata w => P w ∧ metadata = w.files.stat file ∧ metadata.regular = true ∧
      metadata.links = 1 ∧ metadata.size ≤ maximum) fun _ => P := by
  refine triple_bind (triple_descriptorMetadata hP file) fun metadata => ?_
  split_ifs with hregular hsize
  · exact triple_fail _ fun w hw => hw.1
  · exact triple_fail _ fun w hw => hw.1
  · simp only [Bool.or_eq_true, Bool.not_eq_true', decide_eq_true_eq, not_or, ne_eq, not_not,
      Bool.not_eq_false] at hregular
    exact triple_pure _ fun w hw => ⟨hw.1, hw.2, hregular.1, hregular.2, not_lt.mp hsize⟩

end Observing

/-! ## Loops -/

section Loops

variable {file source : ℕ} {I : List UInt8 → ℕ → World → Prop}

/-- One write of a part of the bytes. -/
lemma triple_pwrite {bytes : List UInt8} {offset k : ℕ}
    (hI : ∀ bytes offset, Stable (I bytes offset))
    (hwrite : ∀ n w, n ≤ bytes.length → I bytes offset w →
      I (bytes.drop n) (offset + n) (written file (bytes.take n) offset w))
    (hfail : ∀ code w, I bytes offset w → E code w) :
    Triple (fun w => I bytes offset w ∧ w.turns.length ≤ k) (pwrite file bytes offset)
      (fun count w => match count with
        | none => I bytes offset w ∧ w.turns.length < k
        | some n => n ≤ bytes.length ∧ I (bytes.drop n) (offset + n) w ∧ w.turns.length ≤ k)
      E := by
  refine triple_call_turn
    (I := fun turn w => I bytes offset w ∧ w.turns.length ≤ k ∧
      (turn.interrupted = true → w.turns.length < k)) ?_ ?_ ?_
  · rintro w ⟨hw, hk⟩
    exact ⟨(hI _ _).nextTurn hw, (World.stable_turns_le k).nextTurn hk,
      fun h => lt_of_lt_of_le (World.turns_nextTurn_lt h) hk⟩
  · rintro turn w code ⟨hw, -, -⟩ -
    exact hfail code w hw
  · rintro turn w ⟨hw, hk, hlt⟩
    by_cases hinterrupted : turn.interrupted = true
    · rw [if_pos hinterrupted]
      exact ⟨hw, hlt hinterrupted⟩
    · rw [if_neg hinterrupted]
      have htake : bytes.take (turn.count.getD bytes.length) =
          bytes.take (bytes.take (turn.count.getD bytes.length)).length := by
        rw [List.length_take, List.take_eq_take_iff]
        omega
      refine ⟨?_, ?_, hk⟩
      · simp
      · have hnext := hwrite (bytes.take (turn.count.getD bytes.length)).length w (by simp) hw
        rwa [← htake] at hnext

/-- One turn of the loop writes a byte or uses up a turn of the world. -/
lemma triple_pwriteStep {bytes : List UInt8} {offset m : ℕ}
    (hI : ∀ bytes offset, Stable (I bytes offset))
    (hwrite : ∀ n w, n ≤ bytes.length → I bytes offset w →
      I (bytes.drop n) (offset + n) (written file (bytes.take n) offset w))
    (hfail : ∀ code w, I bytes offset w → E code w) :
    Triple (fun w => I bytes offset w ∧ bytes.length + w.turns.length ≤ m)
      (pwriteStep file (bytes, offset))
      (fun next w => match next with
        | some (rest, offset') => I rest offset' w ∧ rest.length + w.turns.length < m ∧
          offset' + rest.length = offset + bytes.length
        | none => bytes = [] ∧ I bytes offset w) E := by
  rw [pwriteStep]
  by_cases hempty : bytes = []
  · subst hempty
    exact triple_pure _ fun w hw => ⟨rfl, hw.1⟩
  have hne : bytes.isEmpty = false := by simpa using hempty
  simp only [hne, Bool.false_eq_true, if_false]
  intro w hw
  -- from here on the turns are counted apart from the bytes
  have hk : w.turns.length ≤ m - bytes.length := by omega
  have hm : bytes.length ≤ m := by omega
  have hturns := World.stable_turns_le (m - bytes.length)
  refine triple_bind (P := fun w => I bytes offset w ∧ w.turns.length ≤ m - bytes.length)
    (triple_weaken (keeps_checkCancelled ((hI bytes offset).and hturns)) (fun _ h => h)
      (fun _ _ h => h) fun code w h => hfail code w h.1) (fun _ => ?_) w ⟨hw.1, hk⟩
  refine triple_bind (triple_pwrite hI hwrite hfail) fun count => ?_
  match count with
  | none =>
    refine triple_pure _ fun w hw => ⟨hw.1, ?_, rfl⟩
    have := hw.2
    omega
  | some 0 => exact triple_fail _ fun w hw => hfail _ w hw.2.1
  | some (n + 1) =>
    refine triple_pure _ fun w hw => ⟨hw.2.1, ?_, ?_⟩
    all_goals
      have hn := hw.1
      have hk := hw.2.2
      rw [List.length_drop]
      omega

/-- What every write keeps holds at the end with no bytes left. -/
theorem triple_pwriteAllAt (bytes : List UInt8) (offset : ℕ)
    (hI : ∀ bytes offset, Stable (I bytes offset))
    (hwrite : ∀ bytes offset n w, n ≤ bytes.length → I bytes offset w →
      I (bytes.drop n) (offset + n) (written file (bytes.take n) offset w))
    (hfail : ∀ bytes offset code w, I bytes offset w → E code w) :
    Triple (I bytes offset) (pwriteAllAt file bytes offset)
      (fun _ => I [] (offset + bytes.length)) E := by
  let J : List UInt8 × ℕ → World → Prop := fun b w =>
    I b.1 b.2 w ∧ b.2 + b.1.length = offset + bytes.length
  intro w hw
  refine triple_loop (I := J) (fun b w => b.1.length + w.turns.length) ?_
    (loopFuel bytes.length w) (bytes, offset) w ⟨⟨hw, rfl⟩, Nat.lt_succ_self _⟩
  rintro ⟨rest, offset'⟩ m
  rintro w ⟨⟨hw, hlength⟩, hm⟩
  refine triple_weaken (triple_pwriteStep (m := m) hI (hwrite rest offset') (hfail rest offset'))
    (P := fun w' => w' = w) ?_ ?_ (fun _ _ h => h) w rfl
  · rintro _ rfl
    exact ⟨hw, le_of_eq hm⟩
  · rintro (_ | ⟨rest', offset''⟩) w' h
    · obtain ⟨rfl, h⟩ := h
      rwa [← hlength]
    · exact ⟨⟨h.1, h.2.2.trans hlength⟩, h.2.1⟩

/-- One read: the bytes read at an offset are what is to be written there. -/
lemma triple_pread {length offset k : ℕ} (hI : Stable (I [] offset))
    (hread : ∀ n w, I [] offset w → I (((w.files.inodes source).bytes.drop offset).take n) offset w)
    (hfail : ∀ code w, I [] offset w → E code w) :
    Triple (fun w => I [] offset w ∧ w.turns.length ≤ k) (pread source length offset)
      (fun bytes w => match bytes with
        | none => I [] offset w ∧ w.turns.length < k
        | some bytes => bytes.length ≤ length ∧ (I [] offset w ∧ I bytes offset w) ∧
          w.turns.length ≤ k) E := by
  refine triple_call_turn
    (I := fun turn w => I [] offset w ∧ w.turns.length ≤ k ∧
      (turn.interrupted = true → w.turns.length < k)) ?_ ?_ ?_
  · rintro w ⟨hw, hk⟩
    exact ⟨hI.nextTurn hw, (World.stable_turns_le k).nextTurn hk,
      fun h => lt_of_lt_of_le (World.turns_nextTurn_lt h) hk⟩
  · rintro turn w code ⟨hw, -, -⟩ -
    exact hfail code w hw
  · rintro turn w ⟨hw, hk, hlt⟩
    by_cases hinterrupted : turn.interrupted = true
    · rw [if_pos hinterrupted]
      exact ⟨hw, hlt hinterrupted⟩
    · rw [if_neg hinterrupted]
      have hbytes := hread (min (turn.count.getD length) length) w hw
      rw [← List.take_take] at hbytes
      refine ⟨?_, ⟨hw, hbytes⟩, hk⟩
      simp only [List.length_take]
      omega

/-- One turn of the copy copies a byte or uses up a turn of the world. -/
lemma triple_copyStep {length offset m : ℕ} (hI : ∀ bytes offset, Stable (I bytes offset))
    (hread : ∀ n w, I [] offset w → I (((w.files.inodes source).bytes.drop offset).take n) offset w)
    (hwrite : ∀ bytes offset n w, n ≤ bytes.length → I bytes offset w →
      I (bytes.drop n) (offset + n) (written file (bytes.take n) offset w))
    (hfail : ∀ bytes offset code w, I bytes offset w → E code w) :
    Triple (fun w => (I [] offset w ∧ offset ≤ length) ∧ length - offset + w.turns.length ≤ m)
      (copyStep source file length offset)
      (fun next w => match next with
        | some offset' => (I [] offset' w ∧ offset' ≤ length) ∧
          length - offset' + w.turns.length < m
        | none => I [] length w) E := by
  rintro w ⟨⟨hw, hle⟩, hm⟩
  rw [copyStep]
  split_ifs with hend
  · obtain rfl := le_antisymm hle hend
    exact hw
  have hk : w.turns.length ≤ m - (length - offset) := by omega
  have hturns := World.stable_turns_le (m - (length - offset))
  refine triple_bind (P := fun w => I [] offset w ∧ w.turns.length ≤ m - (length - offset))
    (triple_weaken (keeps_checkCancelled ((hI [] offset).and hturns)) (fun _ h => h)
      (fun _ _ h => h) fun code w h => hfail _ _ code w h.1) (fun _ => ?_) w ⟨hw, hk⟩
  refine triple_bind (triple_pread (hI [] offset) hread (hfail [] offset)) fun bytes => ?_
  match bytes with
  | none =>
    refine triple_pure _ fun w hw => ⟨⟨hw.1, hle⟩, ?_⟩
    have := hw.2
    omega
  | some [] => exact triple_fail _ fun w hw => hfail _ _ _ w hw.2.1.1
  | some (byte :: bytes) =>
    intro w hw
    obtain ⟨hlength, ⟨-, hw⟩, hk⟩ := hw
    have hlength := le_trans hlength (min_le_left _ _)
    simp only [List.length_cons] at hlength
    refine triple_bind (triple_pwriteAllAt (I := fun rest at' w => I rest at' w ∧
      w.turns.length ≤ m - (length - offset)) (byte :: bytes) offset
      (fun bytes offset => (hI bytes offset).and hturns)
      (fun bytes offset n w hn hw => ⟨hwrite bytes offset n w hn hw.1, hw.2⟩)
      fun bytes offset code w hw => hfail bytes offset code w hw.1) (fun _ => ?_) w ⟨hw, hk⟩
    refine triple_pure _ fun w hw => ⟨⟨hw.1, ?_⟩, ?_⟩
    all_goals
      have hk := hw.2
      simp only [List.length_cons]
      omega

/-- What reads and writes keep holds after a copy. -/
theorem triple_copyExact (length : ℕ) (hI : ∀ bytes offset, Stable (I bytes offset))
    (hread : ∀ offset n w, I [] offset w →
      I (((w.files.inodes source).bytes.drop offset).take n) offset w)
    (hwrite : ∀ bytes offset n w, n ≤ bytes.length → I bytes offset w →
      I (bytes.drop n) (offset + n) (written file (bytes.take n) offset w))
    (hfail : ∀ bytes offset code w, I bytes offset w → E code w) :
    Triple (I [] 0) (copyExact source file length) (fun _ => I [] length) E := by
  intro w hw
  refine triple_loop (I := fun offset w => I [] offset w ∧ offset ≤ length)
    (fun offset w => length - offset + w.turns.length) (fun offset m => ?_)
    (loopFuel length w) 0 w ⟨⟨hw, Nat.zero_le _⟩, Nat.lt_succ_self _⟩
  refine triple_weaken (triple_copyStep (m := m) hI (hread offset) hwrite hfail)
    (fun w h => ⟨h.1, le_of_eq h.2⟩) (fun next w h => ?_) fun _ _ h => h
  cases next with
  | some offset' => exact h
  | none => exact h

end Loops

end Sys

/-! ## Requests -/

section Requests

variable {request : BoundRequest} {scope : FilesystemWriteScope} {mount path : String}
  {operation : WriteOperation}

lemma okOr_ne_panic {o : Option α} {code : BrokerErrorCode} : okOr o code ≠ panic := by
  cases o <;> simp [okOr]

lemma rejectIf_ne_panic {condition : Bool} {code : BrokerErrorCode} :
    rejectIf condition code ≠ panic := ite_ne_panic (by simp) (by simp)

lemma mapSchemaError_ne_panic {x : Outcome SchemaError α} (h : x ≠ panic) :
    mapSchemaError x ≠ panic := by
  cases x with
  | ok a => simp [mapSchemaError]
  | err e => simp [mapSchemaError]
  | panic => exact absurd rfl h

namespace FilesystemWrite

open Prog

lemma filesystemScope_ne_panic : filesystemScope request ≠ panic := by
  rw [filesystemScope]
  split <;> simp

lemma cString_ne_panic (name : String) : cString name ≠ panic := ite_ne_panic (by simp) (by simp)

lemma validateMountAndPath_ne_panic : validateMountAndPath request scope mount path ≠ panic :=
  bind_ne_panic.mpr ⟨rejectIf_ne_panic, fun _ _ => rejectIf_ne_panic⟩

lemma decodeWrite_ne_panic : decodeWrite request scope operation ≠ panic := by
  refine bind_ne_panic.mpr ⟨rejectIf_ne_panic, fun _ _ => bind_ne_panic.mpr
    ⟨mapSchemaError_ne_panic (FilesystemWriteFile.decode_ne_panic _), fun write _ => ?_⟩⟩
  refine bind_ne_panic.mpr ⟨validateMountAndPath_ne_panic, fun _ _ => ?_⟩
  exact bind_ne_panic.mpr ⟨rejectIf_ne_panic, fun _ _ => by simp⟩

lemma decodePath_ne_panic : decodePath request scope operation ≠ panic := by
  refine bind_ne_panic.mpr ⟨rejectIf_ne_panic, fun _ _ => bind_ne_panic.mpr
    ⟨mapSchemaError_ne_panic (FilesystemPath.decode_ne_panic _), fun write _ => ?_⟩⟩
  exact bind_ne_panic.mpr ⟨validateMountAndPath_ne_panic, fun _ _ => by simp⟩

lemma decodeRename_ne_panic : decodeRename request scope ≠ panic := by
  refine bind_ne_panic.mpr ⟨rejectIf_ne_panic, fun _ _ => bind_ne_panic.mpr
    ⟨mapSchemaError_ne_panic (FilesystemRename.decode_ne_panic _), fun write _ => ?_⟩⟩
  refine bind_ne_panic.mpr ⟨validateMountAndPath_ne_panic, fun _ _ => bind_ne_panic.mpr
    ⟨validateMountAndPath_ne_panic, fun _ _ => ?_⟩⟩
  exact bind_ne_panic.mpr ⟨rejectIf_ne_panic, fun _ _ => by simp⟩

lemma decodeAndAuthorize_ne_panic : decodeAndAuthorize request ≠ panic := by
  refine bind_ne_panic.mpr ⟨rejectIf_ne_panic, fun _ _ => bind_ne_panic.mpr
    ⟨filesystemScope_ne_panic, fun scope _ => ?_⟩⟩
  repeat' refine ite_ne_panic ?_ ?_
  · exact map_ne_panic.mpr decodeWrite_ne_panic
  · exact map_ne_panic.mpr decodeWrite_ne_panic
  · exact map_ne_panic.mpr decodeWrite_ne_panic
  · exact map_ne_panic.mpr decodePath_ne_panic
  · exact map_ne_panic.mpr decodeRename_ne_panic
  · exact map_ne_panic.mpr decodePath_ne_panic
  · simp

/-- A path that a request may name. -/
def IsPlain (path : String) : Prop := (Path.components path).all isPlainComponent = true

lemma isPlain_of_validate {u : Unit} (h : validateMountAndPath request scope mount path = ok u) :
    IsPlain path := by
  simp only [validateMountAndPath, Outcome.bind_eq_ok, rejectIf_eq_ok, Bool.or_eq_false_iff,
    List.any_eq_false, Bool.not_eq_true', Bool.not_eq_false] at h
  obtain ⟨-, -, -, hplain⟩ := h
  exact List.all_eq_true.mpr hplain

lemma fileName_of_isPlain {name : String} (h : IsPlain path)
    (hname : Path.fileName path = some name) : isReserved name = false := by
  rw [Path.fileName] at hname
  split at hname
  · rename_i last hlast
    cases hname
    have hplain := List.all_eq_true.mp h _ (List.mem_of_getLast? hlast)
    simpa [isPlainComponent] using hplain
  · cases hname

/-- Every path of a mutation is one that a request may name. -/
def Plain : AuthorizedMutation → Prop
  | .create write | .replace write | .append write => IsPlain write.path
  | .delete path | .createDirectory path => IsPlain path.path
  | .rename rename => IsPlain rename.source ∧ IsPlain rename.destination

lemma isPlain_decodeWrite {write : FilesystemWriteFile}
    (h : decodeWrite request scope operation = ok write) : IsPlain write.path := by
  simp only [decodeWrite, Outcome.bind_eq_ok] at h
  obtain ⟨_, _, write', _, u, hvalid, _, _, hpure⟩ := h
  cases hpure
  exact isPlain_of_validate hvalid

lemma isPlain_decodePath {path : FilesystemPath}
    (h : decodePath request scope operation = ok path) : IsPlain path.path := by
  simp only [decodePath, Outcome.bind_eq_ok] at h
  obtain ⟨_, _, path', _, u, hvalid, hpure⟩ := h
  cases hpure
  exact isPlain_of_validate hvalid

lemma isPlain_decodeRename {rename : FilesystemRename}
    (h : decodeRename request scope = ok rename) :
    IsPlain rename.source ∧ IsPlain rename.destination := by
  simp only [decodeRename, Outcome.bind_eq_ok] at h
  obtain ⟨_, _, rename', _, u, hsource, v, hdestination, _, _, hpure⟩ := h
  cases hpure
  exact ⟨isPlain_of_validate hsource, isPlain_of_validate hdestination⟩

lemma plain_decodeAndAuthorize {mutation : AuthorizedMutation}
    (h : decodeAndAuthorize request = ok mutation) : Plain mutation := by
  simp only [decodeAndAuthorize, Outcome.bind_eq_ok] at h
  obtain ⟨_, _, scope, _, h⟩ := h
  split_ifs at h
  · obtain ⟨write, hwrite, rfl⟩ := Outcome.map_eq_ok.mp h
    exact isPlain_decodeWrite hwrite
  · obtain ⟨write, hwrite, rfl⟩ := Outcome.map_eq_ok.mp h
    exact isPlain_decodeWrite hwrite
  · obtain ⟨write, hwrite, rfl⟩ := Outcome.map_eq_ok.mp h
    exact isPlain_decodeWrite hwrite
  · obtain ⟨path, hpath, rfl⟩ := Outcome.map_eq_ok.mp h
    exact isPlain_decodePath hpath
  · obtain ⟨rename, hrename, rfl⟩ := Outcome.map_eq_ok.mp h
    exact isPlain_decodeRename hrename
  · obtain ⟨path, hpath, rfl⟩ := Outcome.map_eq_ok.mp h
    exact isPlain_decodePath hpath

/-- The name of a target is not reserved. -/
lemma triple_openParent {P : World → Prop} (hP : Stable P) (h : IsPlain path) :
    Triple P (openParent request mount path)
      (fun target w => P w ∧ isReserved target.name = false) fun _ => P := by
  refine triple_lift_bind okOr_ne_panic (fun _ _ _ hw => hw) fun binding _ => ?_
  refine triple_bind (Sys.keeps_openDirectory hP _) fun root => ?_
  refine triple_lift_bind okOr_ne_panic (fun _ _ _ hw => hw) fun fileName hfileName => ?_
  refine triple_lift_bind (cString_ne_panic _) (fun _ _ _ hw => hw) fun name hname => ?_
  refine triple_lift_bind (cString_ne_panic _) (fun _ _ _ hw => hw) fun _ _ => ?_
  refine triple_bind (Sys.keeps_openDirectory hP _) fun directory => ?_
  refine triple_pure _ fun w hw => ⟨hw, ?_⟩
  have hreserved := fileName_of_isPlain h (okOr_eq_ok.mp hfileName)
  rw [cString] at hname
  split_ifs at hname
  cases hname
  exact hreserved

end FilesystemWrite

end Requests

end TouchBar.Supervisor
