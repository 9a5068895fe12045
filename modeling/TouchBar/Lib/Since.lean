import Mathlib

/-!
# Since when something has been seen

A sighting says what is seen at some time, if anything.  An observer remembers what it has seen
at the last sighting and since when it has seen the same without a break.  It keeps this with
one entry: the entry stays while what is seen is the same, it is replaced when something else is
seen, and it is dropped when nothing is seen.
-/

namespace TouchBar.Lib

variable {σ τ : Type*}

structure Sighting (σ τ : Type*) where
  seen : Option σ
  time : τ

variable {R : σ → σ → Bool}

/-- The entry after a sighting. -/
def observe (R : σ → σ → Bool) (entry : Option (σ × τ)) (o : Sighting σ τ) : Option (σ × τ) :=
  o.seen.map fun s => (entry.filter fun e => R e.1 s).getD (s, o.time)

def Sighting.Shows (R : σ → σ → Bool) (s : σ) (o : Sighting σ τ) : Prop :=
  ∃ s', o.seen = some s' ∧ R s s' = true

/-- The same has been seen since the time, and not at the sighting before. -/
def Since (R : σ → σ → Bool) (l : List (Sighting σ τ)) (s : σ) (t : τ) : Prop :=
  ∃ earlier first later, l = earlier ++ first :: later ∧ first.time = t ∧
    (∀ o ∈ first :: later, o.Shows R s) ∧ ∀ o ∈ earlier.getLast?, ¬ o.Shows R s

variable {l : List (Sighting σ τ)} {s s' : σ} {t : τ}

lemma foldl_observe_concat (o : Sighting σ τ) :
    (l ++ [o]).foldl (observe R) none = observe R (l.foldl (observe R) none) o := by
  rw [List.foldl_append]
  rfl

/-- The entry is of what is seen. -/
lemma observe_seen (entry : Option (σ × τ)) (hself : R s s = true) (t : τ) :
    ∃ e, observe R entry ⟨some s, t⟩ = some e ∧ R e.1 s = true := by
  refine ⟨_, rfl, ?_⟩
  dsimp only
  cases hfound : entry.filter fun e => R e.1 s with
  | none => exact hself
  | some e => exact (Option.filter_eq_some_iff.mp hfound).2

lemma observe_same {e : σ × τ} (h : R e.1 s = true) (t : τ) :
    observe R (some e) ⟨some s, t⟩ = some e := by
  rw [observe, Option.map_some, Option.filter_some, if_pos h, Option.getD_some]

lemma exists_entry (hself : ∀ o ∈ l, ∀ s, o.seen = some s → R s s = true) {o : Sighting σ τ}
    (hlast : o ∈ l.getLast?) (hseen : o.seen = some s) :
    ∃ e, l.foldl (observe R) none = some e ∧ R e.1 s = true := by
  induction l using List.reverseRecOn with
  | nil => cases hlast
  | append_singleton l o' _ =>
    rw [List.getLast?_append, List.getLast?_singleton] at hlast
    cases hlast
    obtain ⟨seen, time⟩ := o
    cases hseen
    rw [foldl_observe_concat]
    exact observe_seen _ (hself _ (List.mem_append_right _ List.mem_cons_self) s rfl) time

theorem since_of_foldl (hsymm : ∀ {a b}, R a b = true → R b a = true)
    (htrans : ∀ {a b c}, R a b = true → R b c = true → R a c = true)
    (hself : ∀ o ∈ l, ∀ s, o.seen = some s → R s s = true)
    (h : l.foldl (observe R) none = some (s, t)) : Since R l s t := by
  induction l using List.reverseRecOn generalizing s t with
  | nil => cases h
  | append_singleton l o ih =>
    rw [List.forall_mem_append, List.forall_mem_singleton] at hself
    rw [foldl_observe_concat, observe, Option.map_eq_some_iff] at h
    obtain ⟨s', hseen, h⟩ := h
    cases hfound : (l.foldl (observe R) none).filter fun e => R e.1 s' with
    | some e =>
      rw [hfound, Option.getD_some] at h
      subst h
      obtain ⟨hentry, hsame⟩ := Option.filter_eq_some_iff.mp hfound
      obtain ⟨earlier, first, later, rfl, htime, hshows, hbefore⟩ := ih hself.1 hentry
      refine ⟨earlier, first, later ++ [o], by simp, htime, ?_, hbefore⟩
      rw [← List.cons_append, List.forall_mem_append, List.forall_mem_singleton]
      exact ⟨hshows, s', hseen, hsame⟩
    | none =>
      rw [hfound, Option.getD_none] at h
      cases h
      refine ⟨l, o, [], rfl, rfl, ?_, ?_⟩
      · rw [List.forall_mem_singleton]
        exact ⟨s, hseen, hself.2 s hseen⟩
      · -- else the entry would have been kept
        rintro o' hlast ⟨s'', hseen'', hsame⟩
        obtain ⟨e, hentry, he⟩ := exists_entry hself.1 hlast hseen''
        have hkept := Option.filter_eq_none_iff.mp hfound e hentry
        exact hkept (htrans he (hsymm hsame))

lemma Since.congr (hsymm : ∀ {a b}, R a b = true → R b a = true)
    (htrans : ∀ {a b c}, R a b = true → R b c = true → R a c = true) (hss : R s s' = true)
    (h : Since R l s t) : Since R l s' t := by
  obtain ⟨earlier, first, later, hl, htime, hshows, hbefore⟩ := h
  refine ⟨earlier, first, later, hl, htime, fun o ho => ?_, fun o ho hshow => hbefore o ho ?_⟩
  · obtain ⟨s'', hseen, hsame⟩ := hshows o ho
    exact ⟨s'', hseen, htrans (hsymm hss) hsame⟩
  · obtain ⟨s'', hseen, hsame⟩ := hshow
    exact ⟨s'', hseen, htrans hss hsame⟩

/-! ## Several entries -/

section Bindings

variable {κ ρ : Type*} [DecidableEq κ] {entry : ρ → Option (σ × τ)} {bind : ρ → κ × σ → ρ}
  {retain : ρ → ρ} {r : ρ} {k : κ} {bindings : List (κ × σ)}

lemma mem_of_lookup (h : bindings.lookup k = some s) : (k, s) ∈ bindings := by
  induction bindings with
  | nil => cases h
  | cons a bindings ih =>
    rw [List.lookup_cons] at h
    split at h
    · next heq =>
      cases h
      exact List.mem_cons.mpr (.inl (by rw [eq_of_beq heq]))
    · exact List.mem_cons_of_mem _ (ih h)

lemma lookup_eq_none : bindings.lookup k = none ↔ k ∉ bindings.map Prod.fst := by
  rw [List.lookup_eq_none_iff, List.mem_map]
  simp only [bne_iff_ne, not_exists, not_and]
  exact ⟨fun h a ha heq => h a ha heq.symm, fun h a ha heq => h a ha heq.symm⟩

lemma entry_foldl_of_same (hbind : ∀ r a, entry (bind r a) =
      if k = a.1 then observe R (entry r) ⟨some a.2, t⟩ else entry r) {e : σ × τ}
    (hentry : entry r = some e) (hsame : ∀ a ∈ bindings, k = a.1 → R e.1 a.2 = true) :
    entry (bindings.foldl bind r) = some e := by
  induction bindings generalizing r with
  | nil => exact hentry
  | cons a bindings ih =>
    rw [List.forall_mem_cons] at hsame
    refine ih ?_ hsame.2
    rw [hbind, hentry]
    split_ifs with hk
    · exact observe_same (hsame.1 hk) t
    · rfl

/-- Of several bindings of a key that say the same, the first one decides. -/
lemma entry_foldl (htrans : ∀ {a b c}, R a b = true → R b c = true → R a c = true)
    (hbind : ∀ r a, entry (bind r a) =
      if k = a.1 then observe R (entry r) ⟨some a.2, t⟩ else entry r)
    (hsame : ∀ a ∈ bindings, ∀ b ∈ bindings, a.1 = b.1 → R a.2 b.2 = true) (r : ρ) :
    entry (bindings.foldl bind r) =
      match bindings.lookup k with
      | some s => observe R (entry r) ⟨some s, t⟩
      | none => entry r := by
  induction bindings generalizing r with
  | nil => rfl
  | cons a bindings ih =>
    rw [List.foldl_cons, List.lookup_cons]
    have hfirst := hbind r a
    by_cases hk : k = a.1
    · rw [if_pos hk] at hfirst
      rw [beq_iff_eq.mpr hk]
      obtain ⟨e, he, hea⟩ := observe_seen (entry r)
        (hsame a List.mem_cons_self a List.mem_cons_self rfl) t
      dsimp only
      rw [he]
      refine entry_foldl_of_same hbind (hfirst.trans he) fun b hb hkb => ?_
      exact htrans hea (hsame a List.mem_cons_self b (List.mem_cons_of_mem _ hb) (hk ▸ hkb))
    · rw [if_neg hk] at hfirst
      rw [beq_false_of_ne hk]
      dsimp only
      rw [← hfirst]
      exact ih (fun a ha b hb => hsame a (List.mem_cons_of_mem _ ha) b (List.mem_cons_of_mem _ hb)) _

variable (entry bind retain) in
/-- The bindings of a place are observed there, and what is not bound is dropped. -/
lemma entry_view {here : Prop} [Decidable here]
    (htrans : ∀ {a b c}, R a b = true → R b c = true → R a c = true)
    (hbind : ∀ r a, entry (bind r a) =
      if here ∧ k = a.1 then observe R (entry r) ⟨some a.2, t⟩ else entry r)
    (hretain : ∀ r, entry (retain r) =
      if here ∧ k ∉ bindings.map Prod.fst then none else entry r)
    (hsame : ∀ a ∈ bindings, ∀ b ∈ bindings, a.1 = b.1 → R a.2 b.2 = true) (r : ρ) :
    entry (retain (bindings.foldl bind r)) =
      if here then observe R (entry r) ⟨bindings.lookup k, t⟩ else entry r := by
  rw [hretain]
  by_cases hhere : here
  · simp only [hhere, true_and, if_true] at hbind ⊢
    rw [entry_foldl (R := R) htrans hbind hsame]
    cases hlookup : bindings.lookup k with
    | none => rw [if_pos (lookup_eq_none.mp hlookup), observe, Option.map_none]
    | some s =>
      rw [if_neg]
      exact not_not.mpr (List.mem_map_of_mem (f := Prod.fst) (mem_of_lookup hlookup))
  · simp only [hhere, false_and, if_false] at hbind ⊢
    clear hretain hsame
    induction bindings generalizing r with
    | nil => rfl
    | cons a bindings ih => rw [List.foldl_cons, ih, hbind]

end Bindings

end TouchBar.Lib
