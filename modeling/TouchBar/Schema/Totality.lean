import TouchBar.Schema.Files

/-!
# Decoders do not panic

Reading a payload ends in a value or in an error, whatever the bytes are.
-/

namespace TouchBar.Rust.Outcome

variable {ε : Type} {α β : Type}

lemma bind_ne_panic {x : Outcome ε α} {f : α → Outcome ε β} :
    (x >>= f) ≠ panic ↔ x ≠ panic ∧ ∀ a, x = ok a → f a ≠ panic := by
  cases x <;> simp

lemma map_ne_panic {x : Outcome ε α} {f : α → β} : (f <$> x) ≠ panic ↔ x ≠ panic := by
  rw [map_eq_pure_bind, bind_ne_panic]
  simp

lemma ite_ne_panic {p : Prop} [Decidable p] {x y : Outcome ε α} (hx : x ≠ panic)
    (hy : y ≠ panic) : (if p then x else y) ≠ panic := by
  split_ifs
  · exact hx
  · exact hy

end TouchBar.Rust.Outcome

namespace TouchBar.Lib.Reader

open TouchBar.Rust Outcome

variable {ε β α γ : Type} {d : Reader ε β α} {f : α → Reader ε β γ}

/-- A decoder that ends in a value or in an error. -/
def Total (d : Reader ε β α) : Prop := ∀ input, d input ≠ panic

lemma total_pure (a : α) : Total (pure a : Reader ε β α) := fun input h => by cases h

lemma total_reject (e : ε) : Total (reject e : Reader ε β α) := fun input h => by cases h

lemma total_bind (hd : Total d) (hf : ∀ a, Total (f a)) : Total (d >>= f) := by
  intro input
  change (d input >>= fun p => f p.1 p.2) ≠ panic
  exact bind_ne_panic.mpr ⟨hd input, fun p _ => hf p.1 p.2⟩

lemma total_map {g : α → γ} (hd : Total d) : Total (g <$> d) := by
  rw [map_eq_pure_bind]
  exact total_bind hd fun a => total_pure (g a)

lemma total_ite {p : Prop} [Decidable p] {d' : Reader ε β α} (hd : Total d) (hd' : Total d') :
    Total (if p then d else d') := by
  split_ifs
  · exact hd
  · exact hd'

end TouchBar.Lib.Reader

namespace TouchBar.Schema

open TouchBar.Rust TouchBar.Lib Outcome

namespace Decoder

open Reader

lemma total_take (n : ℕ) : Total (take n) := by
  intro input
  exact ite_ne_panic (by simp) (by simp)

lemma total_u32 : Total u32 := total_map (total_take 4)

lemma total_u64 : Total u64 := total_map (total_take 8)

lemma total_string : Total string := by
  refine total_bind (total_map (total_take 2)) fun length => total_ite (total_reject _) ?_
  refine total_bind (total_take length) fun value => ?_
  split
  · exact total_pure _
  · exact total_reject _

lemma total_payload (maximum : ℕ) : Total (payload maximum) :=
  total_bind total_u64 fun _ => total_ite (total_reject _) (total_take _)

lemma total_stringPair : Total decodeStringPair :=
  total_bind total_string fun _ => total_bind total_string fun _ => total_pure _

lemma run_ne_panic {α : Type} {d : Decoder α} (h : Total d) (magic bytes : List UInt8) :
    run d magic bytes ≠ panic := by
  refine ite_ne_panic (by simp) (ite_ne_panic (by simp) ?_)
  exact bind_ne_panic.mpr ⟨h _, fun _ _ => ite_ne_panic (by simp) (by simp)⟩

end Decoder

lemma Encoder.finish_ne_panic (bytes : List UInt8) : Encoder.finish bytes ≠ panic :=
  ite_ne_panic (by simp) (by simp)

variable (bytes : List UInt8)

open Reader Decoder

lemma FilesystemWriteFile.decode_ne_panic : FilesystemWriteFile.decode bytes ≠ panic :=
  run_ne_panic (total_bind total_string fun _ => total_bind total_string fun _ =>
    total_bind (total_payload _) fun _ => total_pure _) _ _

lemma FilesystemPath.decode_ne_panic : FilesystemPath.decode bytes ≠ panic :=
  map_ne_panic.mpr (run_ne_panic total_stringPair _ _)

lemma FilesystemRename.decode_ne_panic : FilesystemRename.decode bytes ≠ panic :=
  run_ne_panic (total_bind total_string fun _ => total_bind total_string fun _ =>
    total_bind total_string fun _ => total_pure _) _ _

lemma FilesystemWriteStream.decode_ne_panic : FilesystemWriteStream.decode bytes ≠ panic := by
  refine bind_ne_panic.mpr ⟨?_, fun _ _ => ite_ne_panic (by simp) (by simp)⟩
  exact run_ne_panic (total_bind total_string fun _ => total_bind total_string fun _ =>
    total_bind total_u64 fun _ => total_pure _) _ _

lemma FilesystemWriteStreamChunk.decode_ne_panic :
    FilesystemWriteStreamChunk.decode bytes ≠ panic := by
  refine run_ne_panic (total_bind total_u64 fun _ => total_bind total_u64 fun _ =>
    total_bind total_u32 fun _ => total_ite (total_reject _) ?_) _ _
  exact total_bind (total_take _) fun _ => total_pure _

lemma decodeResourceId_ne_panic (magic : List UInt8) : decodeResourceId magic bytes ≠ panic := by
  refine bind_ne_panic.mpr ⟨run_ne_panic total_u64 _ _, fun _ _ => ?_⟩
  exact ite_ne_panic (by simp) (by simp)

/-- The receipt of a mutation is short enough to be sent. -/
lemma FilesystemMutationResult.encode_ok (result : FilesystemMutationResult) :
    ∃ bytes, FilesystemMutationResult.encode result = ok bytes := by
  refine ⟨_, if_neg ?_⟩
  have hmagic : FilesystemMutationResult.magic.length = 8 := by decide
  have hsize : (Encoder.optionalBytes Encoder.u64 result.resultingSize).length ≤ 9 := by
    cases result.resultingSize <;> simp [Encoder.optionalBytes, Encoder.u64, leBytes_length]
  rw [List.length_append, List.length_append, hmagic, Encoder.u64, leBytes_length]
  simp only [maxPayloadBytes]
  omega

lemma FilesystemWriteStreamOpened.encode_ok {resourceId : UInt64} (h : resourceId ≠ 0) :
    ∃ bytes, FilesystemWriteStreamOpened.encode
      ⟨resourceId, maxFileWriteStreamChunkBytes.toUInt32⟩ = ok bytes := by
  refine ⟨_, (if_neg ?_).trans (if_neg ?_)⟩
  · simp [h]
    decide
  · have hmagic : FilesystemWriteStreamOpened.magic.length = 8 := by decide
    rw [List.length_append, List.length_append, hmagic, Encoder.u64, Encoder.u32,
      leBytes_length, leBytes_length]
    decide

end TouchBar.Schema
