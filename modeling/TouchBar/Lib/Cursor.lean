import TouchBar.Lib.Codec

/-!
# Cursors over a slice

A decoder may keep the whole slice and an offset into it instead of the symbols that remain.
If every step of such a decoder does what a reader does on the remaining symbols, so does the
whole decoder; its reads then stay inside the slice because the reader's do.
-/

namespace TouchBar.Lib

open TouchBar.Rust Outcome

/-- An offset into a slice of at most `limit` symbols. -/
structure Cursor (β : Type) (limit : ℕ) where
  bytes : List β
  offset : ℕ
  length_le : bytes.length ≤ limit
  offset_le : offset ≤ bytes.length

namespace Cursor

variable {ε β α γ : Type} {limit : ℕ}

/-- The symbols from the offset on. -/
def remaining (c : Cursor β limit) : List β := c.bytes.drop c.offset

@[simp] lemma length_remaining (c : Cursor β limit) :
    c.remaining.length = c.bytes.length - c.offset := List.length_drop

lemma offset_eq_length_iff {c : Cursor β limit} :
    c.offset = c.bytes.length ↔ c.remaining = [] := by
  have hle := c.offset_le
  rw [← List.length_eq_zero_iff, length_remaining]
  omega

/-- What a reader sees of the result of a step. -/
def view : Outcome ε (α × Cursor β limit) → Outcome ε (α × List β)
  | ok (a, c) => ok (a, c.remaining)
  | err e => err e
  | .panic => .panic

@[simp] lemma view_eq_ok {x : Outcome ε (α × Cursor β limit)} {a : α} {rest : List β} :
    view x = ok (a, rest) ↔ ∃ c, x = ok (a, c) ∧ c.remaining = rest := by
  rcases x with ⟨a', c⟩ | e | _
  · simp only [view, Outcome.ok.injEq, Prod.mk.injEq]
    constructor
    · rintro ⟨rfl, rfl⟩
      exact ⟨c, ⟨rfl, rfl⟩, rfl⟩
    · rintro ⟨_, ⟨rfl, rfl⟩, rfl⟩
      exact ⟨rfl, rfl⟩
  · simp [view]
  · simp [view]

/-- A step of a decoder over a slice that does what a reader does on the remaining symbols. -/
structure Follows (d : StateT (Cursor β limit) (Outcome ε) α) (r : Reader ε β α) : Prop where
  view_eq : ∀ c, view (d c) = r c.remaining
  bytes_eq : ∀ c a c', d c = ok (a, c') → c'.bytes = c.bytes

variable {d : StateT (Cursor β limit) (Outcome ε) α} {r : Reader ε β α}

lemma follows_pure (a : α) :
    Follows (pure a : StateT (Cursor β limit) (Outcome ε) α) (pure a) where
  view_eq c := rfl
  bytes_eq c a' c' h := by
    obtain ⟨-, rfl⟩ := Prod.mk.inj (Outcome.ok.inj h)
    rfl

lemma follows_reject (e : ε) :
    Follows (fun _ => err e : StateT (Cursor β limit) (Outcome ε) α) (Reader.reject e) where
  view_eq c := rfl
  bytes_eq c a c' h := by cases h

lemma Follows.bind {f : α → StateT (Cursor β limit) (Outcome ε) γ} {g : α → Reader ε β γ}
    (h : Follows d r) (hf : ∀ a, Follows (f a) (g a)) : Follows (d >>= f) (r >>= g) where
  view_eq c := by
    have hview := h.view_eq c
    change view (d c >>= fun p => f p.1 p.2) = (r c.remaining >>= fun p => g p.1 p.2)
    rw [← hview]
    rcases d c with ⟨a, c'⟩ | e | _
    · exact (hf a).view_eq c'
    · rfl
    · rfl
  bytes_eq c b c' hb := by
    change (d c >>= fun p => f p.1 p.2) = ok (b, c') at hb
    obtain ⟨⟨a, mid⟩, ha, hb⟩ := Outcome.bind_eq_ok.mp hb
    rw [(hf a).bytes_eq mid b c' hb, h.bytes_eq c a mid ha]

/-- A continuation that only computes, on the values that the step returns. -/
lemma Follows.map {f : α → StateT (Cursor β limit) (Outcome ε) γ} {g : α → γ}
    (h : Follows d r) (hf : ∀ c a c', d c = ok (a, c') → f a = pure (g a)) :
    Follows (d >>= f) (g <$> r) where
  view_eq c := by
    have hview := h.view_eq c
    rw [map_eq_pure_bind]
    change view (d c >>= fun p => f p.1 p.2) = (r c.remaining >>= fun p => ok (g p.1, p.2))
    rw [← hview]
    rcases hd : d c with ⟨a, c'⟩ | e | _
    · show view (f a c') = _
      rw [hf c a c' hd]
      rfl
    · rfl
    · rfl
  bytes_eq c b c' hb := by
    change (d c >>= fun p => f p.1 p.2) = ok (b, c') at hb
    obtain ⟨⟨a, mid⟩, ha, hb⟩ := Outcome.bind_eq_ok.mp hb
    rw [hf c a mid ha] at hb
    obtain ⟨-, rfl⟩ := Prod.mk.inj (Outcome.ok.inj hb)
    exact h.bytes_eq c a mid ha

lemma Follows.guard {p : Prop} [Decidable p] {d' : StateT (Cursor β limit) (Outcome ε) α}
    {r' : Reader ε β α} (h : p → Follows d r) (h' : ¬ p → Follows d' r') :
    Follows (if p then d else d') (if p then r else r') := by
  split_ifs with hp
  · exact h hp
  · exact h' hp

/-- Take symbols with a check that the end of what is taken lies inside the slice. -/
def take (overflow truncated : ε) (size length : ℕ) :
    StateT (Cursor β limit) (Outcome ε) (List β) := fun c =>
  if size ≤ c.offset + length then err overflow
  else if h : c.offset + length ≤ c.bytes.length then
    ok ((c.bytes.drop c.offset).take length,
      { c with offset := c.offset + length, offset_le := h })
  else err truncated

/-- Where the sum of the offset and the length cannot overflow, this is what a reader takes. -/
lemma follows_take {overflow truncated : ε} {size length : ℕ} (h : limit + length < size) :
    Follows (take overflow truncated size length : StateT (Cursor β limit) (Outcome ε) (List β))
      (Reader.front truncated length) where
  view_eq c := by
    have hlength := c.length_le
    have hoffset := c.offset_le
    rw [take, if_neg (by omega), Reader.front, length_remaining]
    by_cases hend : c.offset + length ≤ c.bytes.length
    · rw [dif_pos hend, if_pos (by omega)]
      show ok (_, List.drop (c.offset + length) c.bytes) = _
      rw [remaining, List.drop_drop]
    · rw [dif_neg hend, if_neg (by omega)]
      rfl
  bytes_eq c value c' hc := by
    rw [take] at hc
    split_ifs at hc
    obtain ⟨-, rfl⟩ := Prod.mk.inj (Outcome.ok.inj hc)
    rfl

end Cursor

end TouchBar.Lib
