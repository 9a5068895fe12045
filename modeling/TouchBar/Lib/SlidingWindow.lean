import Mathlib

/-!
# A ring of slots as a sliding window

A ledger records amounts at ticks.  What counts at a tick are the entries of the last `n`
ticks, the tick itself included.  A ring of `n` slots keeps this total: the slot `i` has the
amounts of the ticks in the window that are `i` modulo `n`.  When the window moves on, the
slots of the ticks it enters are cleared; a new entry goes to the slot of the latest tick.
-/

namespace TouchBar.Lib

variable {n latest tick amount i : ℕ} {history : List (ℕ × ℕ)}

/-- The total of the entries in the window of `n` ticks that ends at `latest`. -/
def windowSum (n latest : ℕ) (history : List (ℕ × ℕ)) : ℕ :=
  ((history.filter fun e => latest < e.1 + n).map Prod.snd).sum

/-- The total of those entries whose tick is `i` modulo `n`. -/
def slotSum (n latest : ℕ) (history : List (ℕ × ℕ)) (i : ℕ) : ℕ :=
  ((history.filter fun e => latest < e.1 + n ∧ e.1 % n = i).map Prod.snd).sum

/-- The slots that keep the window. -/
def ring (n latest : ℕ) (history : List (ℕ × ℕ)) : List ℕ :=
  (List.range n).map (slotSum n latest history)

/-- Clear the slots of these ticks. -/
def clearSlots (n : ℕ) (slots : List ℕ) (ticks : List ℕ) : List ℕ :=
  ticks.foldl (fun slots tick => slots.set (tick % n) 0) slots

@[simp] lemma length_ring : (ring n latest history).length = n := by
  simp [ring]

@[simp] lemma getElem_ring (h : i < (ring n latest history).length) :
    (ring n latest history)[i] = slotSum n latest history i := by
  simp [ring]

lemma ring_nil : ring n latest [] = List.replicate n 0 :=
  List.eq_replicate_iff.mpr ⟨length_ring, by simp [ring, slotSum]⟩

/-! ## Entries one at a time -/

lemma sum_filter_le {α : Type*} {l : List α} {p q : α → Prop} [DecidablePred p] [DecidablePred q]
    (f : α → ℕ) (h : ∀ a ∈ l, p a → q a) :
    ((l.filter p).map f).sum ≤ ((l.filter q).map f).sum := by
  induction l with
  | nil => exact le_rfl
  | cons a l ih =>
    have hrest := ih fun b hb => h b (List.mem_cons_of_mem _ hb)
    have ha := h a List.mem_cons_self
    by_cases hq : q a
    · by_cases hp : p a <;> simp [hp, hq] <;> omega
    · have hp : ¬p a := fun hp => hq (ha hp)
      simpa [hp, hq] using hrest

lemma windowSum_map {α : Type*} (l : List α) (f : α → ℕ × ℕ) :
    windowSum n latest (l.map f) =
      ((l.filter fun a => latest < (f a).1 + n).map fun a => (f a).2).sum := by
  rw [windowSum, List.filter_map, List.map_map]
  rfl

lemma windowSum_append (m : List (ℕ × ℕ)) :
    windowSum n latest (history ++ m) = windowSum n latest history + windowSum n latest m := by
  simp [windowSum]

lemma slotSum_append (m : List (ℕ × ℕ)) :
    slotSum n latest (history ++ m) i = slotSum n latest history i + slotSum n latest m i := by
  simp [slotSum]

lemma windowSum_singleton (e : ℕ × ℕ) :
    windowSum n latest [e] = if latest < e.1 + n then e.2 else 0 := by
  by_cases h : latest < e.1 + n <;> simp [windowSum, h]

lemma slotSum_singleton (e : ℕ × ℕ) :
    slotSum n latest [e] i = if latest < e.1 + n ∧ e.1 % n = i then e.2 else 0 := by
  by_cases h : latest < e.1 + n ∧ e.1 % n = i
  · rw [if_pos h, slotSum, List.filter_cons_of_pos (by simpa using h)]
    simp
  · rw [if_neg h, slotSum, List.filter_cons_of_neg (by simpa using h)]
    simp

/-- A later window holds no more of the same entries. -/
lemma windowSum_anti (h : latest ≤ tick) :
    windowSum n tick history ≤ windowSum n latest history := by
  refine (List.Sublist.map _ (List.monotone_filter_right _ fun e he => ?_)).sum_le_sum
    fun _ _ => Nat.zero_le _
  simp only [decide_eq_true_eq] at he ⊢
  omega

/-! ## The ring keeps the window -/

/-- Every entry of the window counts in one slot. -/
theorem sum_ring (hn : 0 < n) : (ring n latest history).sum = windowSum n latest history := by
  induction history with
  | nil =>
    rw [ring_nil]
    simp [windowSum]
  | cons e history ih =>
    have hslot : ∀ i, slotSum n latest (e :: history) i =
        slotSum n latest [e] i + slotSum n latest history i := fun _ => @slotSum_append n _ _ [e] _
    have hwindow : windowSum n latest (e :: history) =
        windowSum n latest [e] + windowSum n latest history := @windowSum_append n _ [e] _
    have hone : ((List.range n).map (slotSum n latest [e])).sum = windowSum n latest [e] := by
      have hmem : e.1 % n ∈ List.range n := List.mem_range.mpr (Nat.mod_lt _ hn)
      rw [windowSum_singleton]
      by_cases h : latest < e.1 + n
      · have hfun : slotSum n latest [e] = fun i => if i = e.1 % n then e.2 else 0 := by
          funext i
          simp only [slotSum_singleton, h, true_and, eq_comm]
        rw [hfun, if_pos h, List.sum_map_eq_nsmul_single (e.1 % n) _ fun i hne _ => if_neg hne,
          List.count_eq_one_of_mem List.nodup_range hmem]
        simp
      · have hfun : slotSum n latest [e] = fun _ => 0 := by
          funext i
          simp [slotSum_singleton, h]
        rw [hfun, if_neg h]
        simp
    have hsum : (ring n latest (e :: history)).sum =
        ((List.range n).map (slotSum n latest [e])).sum + (ring n latest history).sum := by
      rw [ring, ring, ← List.sum_map_add]
      exact congrArg List.sum (List.map_congr_left fun i _ => hslot i)
    rw [hsum, hone, ih, hwindow]

lemma getElem?_clearSlots (slots ticks : List ℕ) (i : ℕ) :
    (clearSlots n slots ticks)[i]? =
      if ∃ tick ∈ ticks, tick % n = i then slots[i]?.map fun _ => 0 else slots[i]? := by
  induction ticks generalizing slots with
  | nil => simp [clearSlots]
  | cons tick ticks ih =>
    have hstep : clearSlots n slots (tick :: ticks) =
        clearSlots n (slots.set (tick % n) 0) ticks := rfl
    rw [hstep, ih, List.getElem?_set]
    by_cases hi : tick % n = i
    · subst hi
      by_cases hlt : tick % n < slots.length
      · simp [hlt]
      · simp [hlt]
    · simp [hi]

/-- In a window a residue is met only once: the entries that leave the window are those in
the slots of the ticks it enters. -/
lemma slotSum_advance (hold : ∀ e ∈ history, e.1 ≤ latest) (hle : latest ≤ tick)
    (i : ℕ) :
    slotSum n tick history i =
      if ∃ t ∈ List.range' (latest + 1) (tick - latest), t % n = i then 0
      else slotSum n latest history i := by
  split_ifs with h
  · obtain ⟨t, ht, rfl⟩ := h
    rw [List.mem_range'_1] at ht
    rw [slotSum, List.filter_eq_nil_iff.mpr]
    · rfl
    · intro e he
      have holder := hold e he
      simp only [decide_eq_true_eq, not_and]
      intro hwindow hmod
      -- an older tick with the same residue lies at least `n` ticks back
      have hdvd : n ∣ t - e.1 := (Nat.modEq_iff_dvd' (by omega)).mp hmod
      have hge : n ≤ t - e.1 := Nat.le_of_dvd (by omega) hdvd
      omega
  · unfold slotSum
    congr 2
    apply List.filter_congr
    intro e he
    have holder := hold e he
    have hiff : (tick < e.1 + n ∧ e.1 % n = i) ↔ (latest < e.1 + n ∧ e.1 % n = i) := by
      constructor
      · rintro ⟨hwindow, hmod⟩
        exact ⟨by omega, hmod⟩
      · rintro ⟨hwindow, hmod⟩
        refine ⟨?_, hmod⟩
        by_contra hout
        -- otherwise the tick `n` after the entry is one the window enters
        refine h ⟨e.1 + n, ?_, by rw [Nat.add_mod_right, hmod]⟩
        rw [List.mem_range'_1]
        omega
    exact decide_eq_decide.mpr hiff

/-- Moving the window clears the slots of the ticks it enters. -/
theorem clearSlots_ring (hold : ∀ e ∈ history, e.1 ≤ latest) (hle : latest ≤ tick) :
    clearSlots n (ring n latest history) (List.range' (latest + 1) (tick - latest)) =
      ring n tick history := by
  apply List.ext_getElem?
  intro i
  rw [getElem?_clearSlots]
  by_cases hi : i < n
  · have hget : ∀ t, (ring n t history)[i]? = some (slotSum n t history i) := by
      intro t
      rw [List.getElem?_eq_getElem (by simpa using hi), getElem_ring]
    rw [hget, hget, slotSum_advance hold hle i]
    split_ifs <;> rfl
  · have hget : ∀ t, (ring n t history)[i]? = none := by
      intro t
      rw [List.getElem?_eq_none (by simpa using hi)]
    rw [hget, hget]
    simp

/-- Moving the window by its length or more leaves nothing in it. -/
theorem ring_of_le (hold : ∀ e ∈ history, e.1 ≤ latest) (h : latest + n ≤ tick) :
    ring n tick history = List.replicate n 0 := by
  have hzero : ∀ i, slotSum n tick history i = 0 := by
    intro i
    rw [slotSum, List.filter_eq_nil_iff.mpr]
    · rfl
    · intro e he
      have hle := hold e he
      simp only [decide_eq_true_eq, not_and]
      omega
  exact List.eq_replicate_iff.mpr ⟨length_ring, by simp [ring, hzero]⟩

/-- A new entry at the latest tick. -/
theorem set_ring (hn : 0 < n) :
    (ring n latest history).set (latest % n) (slotSum n latest history (latest % n) + amount) =
      ring n latest (history ++ [(latest, amount)]) := by
  apply List.ext_getElem
  · simp
  intro i hi hi'
  rw [List.getElem_set, getElem_ring, getElem_ring, slotSum_append, slotSum_singleton]
  split_ifs with h hentry hentry
  · rw [h]
  · exact absurd ⟨by omega, h⟩ hentry
  · exact absurd hentry.2 h
  · rfl

end TouchBar.Lib
