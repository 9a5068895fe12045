import Mathlib

/-!
# Ordered sets and maps

`BTreeSet` and `BTreeMap` of the Rust standard library, as lists that are
strictly increasing in their key.  The list is the order of iteration, and since
the invariant is a field, two containers with the same elements are equal, as
they are for the derived `Eq`.  The derived `Ord` of a set compares the element
lists lexicographically.
-/

namespace TouchBar.Rust

/-! ## Sets -/

/-- A set that is iterated in increasing order. -/
structure BTreeSet (α : Type*) [LinearOrder α] where
  /-- The elements, in the order of iteration. -/
  toList : List α
  sorted : toList.Pairwise (· < ·)

namespace BTreeSet

variable {α : Type*} [LinearOrder α] {a b : α} {s t : BTreeSet α}

@[ext] lemma ext_toList (h : s.toList = t.toList) : s = t := by
  cases s
  cases t
  cases h
  rfl

instance : Membership α (BTreeSet α) := ⟨fun s a => a ∈ s.toList⟩

lemma mem_def : a ∈ s ↔ a ∈ s.toList := Iff.rfl

instance : DecidableEq (BTreeSet α) := fun s t =>
  decidable_of_iff (s.toList = t.toList) ⟨ext_toList, fun h => h ▸ rfl⟩

instance : LinearOrder (BTreeSet α) :=
  LinearOrder.lift' BTreeSet.toList fun _ _ h => ext_toList h

/-- `contains`. -/
def contains (s : BTreeSet α) (a : α) : Bool := decide (a ∈ s.toList)

@[simp] lemma contains_iff : s.contains a = true ↔ a ∈ s := by
  simp [contains, mem_def]

/-- `BTreeSet::new()`. -/
def empty : BTreeSet α := ⟨[], List.Pairwise.nil⟩

@[simp] lemma toList_empty : (empty : BTreeSet α).toList = [] := rfl

@[simp] lemma notMem_empty : a ∉ (empty : BTreeSet α) := by
  simp [mem_def]

/-- `is_empty`. -/
def isEmpty (s : BTreeSet α) : Bool := s.toList.isEmpty

/-- `len`. -/
def len (s : BTreeSet α) : ℕ := s.toList.length

/-- Insertion into an increasing list. -/
def insertList (a : α) : List α → List α
  | [] => [a]
  | b :: l => if a < b then a :: b :: l else if a = b then b :: l else b :: insertList a l

lemma mem_insertList {l : List α} : b ∈ insertList a l ↔ b = a ∨ b ∈ l := by
  induction l with
  | nil => simp [insertList]
  | cons c l ih =>
    rw [insertList]
    split_ifs with hlt heq
    · simp
    · subst heq
      simp
    · simp only [List.mem_cons, ih]
      tauto

lemma pairwise_insertList {l : List α} (h : l.Pairwise (· < ·)) :
    (insertList a l).Pairwise (· < ·) := by
  induction l with
  | nil => simp [insertList]
  | cons c l ih =>
    rw [List.pairwise_cons] at h
    rw [insertList]
    split_ifs with hlt heq
    · refine List.pairwise_cons.mpr ⟨?_, List.pairwise_cons.mpr h⟩
      intro d hd
      rcases List.mem_cons.mp hd with rfl | hd
      · exact hlt
      · exact hlt.trans (h.1 d hd)
    · exact List.pairwise_cons.mpr h
    · refine List.pairwise_cons.mpr ⟨?_, ih h.2⟩
      intro d hd
      rcases mem_insertList.mp hd with rfl | hd
      · exact lt_of_le_of_ne (not_lt.mp hlt) (Ne.symm heq)
      · exact h.1 d hd

/-- `insert`, as the set afterwards; the returned flag is `!s.contains(a)` before. -/
def insert (s : BTreeSet α) (a : α) : BTreeSet α :=
  ⟨insertList a s.toList, pairwise_insertList s.sorted⟩

@[simp] lemma mem_insert : b ∈ s.insert a ↔ b = a ∨ b ∈ s := mem_insertList

/-- Keep the elements that pass a test; `remove` and `difference` are of this kind. -/
def filter (s : BTreeSet α) (p : α → Bool) : BTreeSet α :=
  ⟨s.toList.filter p, s.sorted.filter p⟩

@[simp] lemma mem_filter {p : α → Bool} : a ∈ s.filter p ↔ a ∈ s ∧ p a = true :=
  List.mem_filter

/-- `remove`, as the set afterwards. -/
def remove (s : BTreeSet α) (a : α) : BTreeSet α := s.filter fun b => b ≠ a

@[simp] lemma mem_remove : b ∈ s.remove a ↔ b ∈ s ∧ b ≠ a := by
  simp [remove]

/-- `collect::<BTreeSet<_>>()`. -/
def ofList (l : List α) : BTreeSet α := l.foldl insert empty

lemma mem_foldl_insert {l : List α} : a ∈ l.foldl insert s ↔ a ∈ l ∨ a ∈ s := by
  induction l generalizing s with
  | nil => simp
  | cons b l ih =>
    rw [List.foldl_cons, ih, mem_insert, List.mem_cons]
    tauto

@[simp] lemma mem_ofList {l : List α} : a ∈ ofList l ↔ a ∈ l := by
  simp [ofList, mem_foldl_insert]

/-- Collecting an increasing list gives the list back. -/
lemma toList_ofList {l : List α} (h : l.Pairwise (· < ·)) : (ofList l).toList = l :=
  List.Pairwise.eq_of_mem_iff (ofList l).sorted h fun _ => mem_ofList

/-- `is_subset`. -/
def isSubset (s t : BTreeSet α) : Bool := s.toList.all t.contains

@[simp] lemma isSubset_iff : s.isSubset t = true ↔ ∀ a ∈ s, a ∈ t := by
  simp [isSubset, List.all_eq_true, mem_def]

/-- The first element that passes a test is the smallest one. -/
lemma find?_eq_some_iff {p : α → Bool} :
    s.toList.find? p = some a ↔ a ∈ s ∧ p a = true ∧ ∀ b ∈ s, p b = true → a ≤ b := by
  have hfirst : ∀ {a}, s.toList.find? p = some a →
      a ∈ s ∧ p a = true ∧ ∀ b ∈ s, p b = true → a ≤ b := by
    intro a h
    refine ⟨List.mem_of_find?_eq_some h, List.find?_some h, fun b hb hpb => ?_⟩
    obtain ⟨-, front, back, hlist, hfront⟩ := List.find?_eq_some_iff_append.mp h
    have hsorted := s.sorted
    rw [hlist, List.pairwise_append, List.pairwise_cons] at hsorted
    rw [mem_def, hlist, List.mem_append, List.mem_cons] at hb
    rcases hb with hb | rfl | hb
    · exact absurd hpb (by simpa using hfront b hb)
    · exact le_rfl
    · exact (hsorted.2.1.1 b hb).le
  refine ⟨hfirst, ?_⟩
  rintro ⟨hmem, hpa, hmin⟩
  obtain ⟨a', ha'⟩ := Option.isSome_iff_exists.mp (List.find?_isSome.mpr ⟨a, hmem, hpa⟩)
  obtain ⟨hmem', hpa', hmin'⟩ := hfirst ha'
  rw [ha', le_antisymm (hmin' a hmem hpa) (hmin a' hmem' hpa')]

lemma isEmpty_iff : s.isEmpty = true ↔ ∀ a, a ∉ s := by
  rw [isEmpty, List.isEmpty_iff, List.eq_nil_iff_forall_not_mem]
  exact Iff.rfl

lemma eq_empty_of_isEmpty (h : s.isEmpty = true) : s = empty :=
  ext_toList (List.isEmpty_iff.mp h)

end BTreeSet

/-! ## Maps -/

/-- A map that is iterated in increasing order of its keys. -/
structure BTreeMap (κ : Type*) (ν : Type*) [LinearOrder κ] where
  /-- The entries, in the order of iteration. -/
  entries : List (κ × ν)
  sorted : entries.Pairwise fun e f => e.1 < f.1

namespace BTreeMap

variable {κ ν : Type*} [LinearOrder κ] {m : BTreeMap κ ν} {k l : κ} {v w : ν}

@[ext] lemma ext_entries {m m' : BTreeMap κ ν} (h : m.entries = m'.entries) : m = m' := by
  cases m
  cases m'
  cases h
  rfl

instance [DecidableEq ν] : DecidableEq (BTreeMap κ ν) := fun m m' =>
  decidable_of_iff (m.entries = m'.entries) ⟨ext_entries, fun h => h ▸ rfl⟩

instance [LinearOrder ν] : LinearOrder (BTreeMap κ ν) :=
  LinearOrder.lift' (fun m => (show List (κ ×ₗ ν) from m.entries)) fun _ _ h => ext_entries h

/-- `get`. -/
def get (m : BTreeMap κ ν) (k : κ) : Option ν :=
  (m.entries.find? fun e => e.1 = k).map Prod.snd

/-- `contains_key`. -/
def containsKey (m : BTreeMap κ ν) (k : κ) : Bool := (m.get k).isSome

/-- `len`. -/
def len (m : BTreeMap κ ν) : ℕ := m.entries.length

/-- `keys`. -/
def keys (m : BTreeMap κ ν) : List κ := m.entries.map Prod.fst

/-- `values`. -/
def values (m : BTreeMap κ ν) : List ν := m.entries.map Prod.snd

/-- `BTreeMap::new()`. -/
def empty : BTreeMap κ ν := ⟨[], List.Pairwise.nil⟩

@[simp] lemma entries_empty : (empty : BTreeMap κ ν).entries = [] := rfl

@[simp] lemma get_empty : (empty : BTreeMap κ ν).get k = none := rfl

/-- In an increasing list the first entry under a key is the only one. -/
lemma find?_eq_some_iff {es : List (κ × ν)} (h : es.Pairwise fun e f => e.1 < f.1) :
    (es.find? fun e => e.1 = k).map Prod.snd = some v ↔ (k, v) ∈ es := by
  induction es with
  | nil => simp
  | cons e es ih =>
    rw [List.pairwise_cons] at h
    rw [List.find?_cons]
    by_cases hk : e.1 = k
    · have hno : (k, v) ∉ es := fun hmem => absurd (h.1 _ hmem) (by simp [hk])
      simp only [hk, decide_true, Option.map_some, Option.some.injEq, List.mem_cons, hno,
        or_false]
      constructor
      · rintro rfl
        exact Prod.ext hk.symm rfl
      · rintro rfl
        rfl
    · have hne : (k, v) ≠ e := fun he => hk (by rw [← he])
      simp only [hk, decide_false, ih h.2, List.mem_cons, hne, false_or]

lemma get_eq_some_iff : m.get k = some v ↔ (k, v) ∈ m.entries := find?_eq_some_iff m.sorted

lemma mem_values_iff : v ∈ m.values ↔ ∃ k, m.get k = some v := by
  simp [values, get_eq_some_iff]

lemma mem_keys_iff : k ∈ m.keys ↔ ∃ v, m.get k = some v := by
  simp [keys, get_eq_some_iff]

/-- Insertion into an increasing list of entries; an equal key is overwritten. -/
def insertEntry (k : κ) (v : ν) : List (κ × ν) → List (κ × ν)
  | [] => [(k, v)]
  | e :: es =>
    if k < e.1 then (k, v) :: e :: es
    else if k = e.1 then (k, v) :: es else e :: insertEntry k v es

lemma mem_insertEntry {es : List (κ × ν)} (h : es.Pairwise fun e f => e.1 < f.1) :
    (l, w) ∈ insertEntry k v es ↔ (l = k ∧ w = v) ∨ (l ≠ k ∧ (l, w) ∈ es) := by
  induction es with
  | nil => simp [insertEntry]
  | cons e es ih =>
    obtain ⟨k', v'⟩ := e
    rw [List.pairwise_cons] at h
    have hgt : ∀ w, (l, w) ∈ es → k' < l := fun w hw => h.1 _ hw
    rw [insertEntry]
    split_ifs with hlt heq
    · have hne : (l, w) ∈ es → l ≠ k := fun hw => ne_of_gt (lt_trans hlt (hgt w hw))
      have hne' : l = k' → l ≠ k := fun hl => ne_of_gt (hl ▸ hlt)
      simp only [List.mem_cons, Prod.mk.injEq]
      tauto
    · have hne : (l, w) ∈ es → l ≠ k := fun hw => ne_of_gt (heq ▸ hgt w hw)
      simp only at heq
      simp only [List.mem_cons, Prod.mk.injEq, ← heq]
      tauto
    · have hne : l = k' → l ≠ k := fun hl hk => heq (by simp [← hl, hk])
      simp only [List.mem_cons, ih h.2, Prod.mk.injEq]
      tauto

lemma pairwise_insertEntry {es : List (κ × ν)} (h : es.Pairwise fun e f => e.1 < f.1) :
    (insertEntry k v es).Pairwise fun e f => e.1 < f.1 := by
  induction es with
  | nil => simp [insertEntry]
  | cons e es ih =>
    have hes := List.pairwise_cons.mp h
    rw [insertEntry]
    split_ifs with hlt heq
    · refine List.pairwise_cons.mpr ⟨?_, h⟩
      intro f hf
      rcases List.mem_cons.mp hf with rfl | hf
      · exact hlt
      · exact hlt.trans (hes.1 f hf)
    · refine List.pairwise_cons.mpr ⟨?_, hes.2⟩
      intro f hf
      simpa [heq] using hes.1 f hf
    · refine List.pairwise_cons.mpr ⟨?_, ih hes.2⟩
      rintro ⟨l, w⟩ hf
      rcases (mem_insertEntry hes.2).mp hf with ⟨rfl, -⟩ | ⟨-, hf⟩
      · exact lt_of_le_of_ne (not_lt.mp hlt) (Ne.symm heq)
      · exact hes.1 _ hf

/-- `insert`. -/
def insert (m : BTreeMap κ ν) (k : κ) (v : ν) : BTreeMap κ ν :=
  ⟨insertEntry k v m.entries, pairwise_insertEntry m.sorted⟩

lemma get_insert : (m.insert k v).get l = if l = k then some v else m.get l := by
  ext w
  rw [get_eq_some_iff]
  change (l, w) ∈ insertEntry k v m.entries ↔ _
  rw [mem_insertEntry m.sorted]
  split_ifs with h
  · simp [h, eq_comm]
  · simp [h, get_eq_some_iff]

lemma eq_of_get_eq {m m' : BTreeMap κ ν} (h : ∀ k, m.get k = m'.get k) : m = m' := by
  apply ext_entries
  refine List.Pairwise.eq_of_mem_iff m.sorted m'.sorted fun e => ?_
  rw [← get_eq_some_iff, ← get_eq_some_iff, h]

/-- The last insert of a key counts. -/
lemma insert_eq_self (h : m.get k = some v) : m.insert k v = m := by
  refine eq_of_get_eq fun l => ?_
  rw [get_insert]
  split_ifs with hl
  · rw [hl, h]
  · rfl

lemma insert_insert (m : BTreeMap κ ν) (k : κ) (v w : ν) :
    (m.insert k v).insert k w = m.insert k w := by
  refine eq_of_get_eq fun l => ?_
  rw [get_insert, get_insert, get_insert]
  split_ifs <;> rfl

/-- `retain`. -/
def retain (m : BTreeMap κ ν) (p : κ → Bool) : BTreeMap κ ν :=
  ⟨m.entries.filter fun e => p e.1, m.sorted.filter _⟩

lemma get_retain {p : κ → Bool} :
    (m.retain p).get k = if p k = true then m.get k else none := by
  ext v
  rw [get_eq_some_iff]
  change (k, v) ∈ m.entries.filter _ ↔ _
  rw [List.mem_filter, ← get_eq_some_iff]
  split_ifs with h <;> simp [h]

/-- `remove`, as the map afterwards. -/
def remove (m : BTreeMap κ ν) (k : κ) : BTreeMap κ ν := m.retain fun l => l ≠ k

/-- Retaining as many entries as there are retains all of them. -/
lemma retain_eq_self {p : κ → Bool} (h : (m.retain p).len = m.len) : m.retain p = m := by
  apply ext_entries
  exact List.Sublist.eq_of_length List.filter_sublist h

lemma remove_eq_self (h : m.get k = none) : m.remove k = m := by
  apply ext_entries
  refine List.filter_eq_self.mpr fun e he => ?_
  have hne : e.1 ≠ k := by
    rintro rfl
    rw [get_eq_some_iff.mpr he] at h
    cases h
  simpa using hne

/-- `collect::<BTreeMap<_, _>>()`: a later entry overwrites an earlier one. -/
def ofList (es : List (κ × ν)) : BTreeMap κ ν := es.foldl (fun m e => m.insert e.1 e.2) empty

lemma get_foldl_insert {es : List (κ × ν)} (hk : (es.map Prod.fst).Nodup) :
    (es.foldl (fun m e => m.insert e.1 e.2) m).get k = some v ↔
      (k, v) ∈ es ∨ (k ∉ es.map Prod.fst ∧ m.get k = some v) := by
  induction es generalizing m with
  | nil => simp
  | cons e es ih =>
    obtain ⟨k', v'⟩ := e
    rw [List.map_cons, List.nodup_cons] at hk
    have hmem : (k, v) ∈ es → k ∈ es.map Prod.fst := fun h => List.mem_map_of_mem h
    rw [List.foldl_cons, ih hk.2, get_insert]
    by_cases h : k = k'
    · subst h
      have hno : (k, v) ∉ es := fun hm => hk.1 (hmem hm)
      have hk1 : k ∉ es.map Prod.fst := hk.1
      simp only [hno, hk1, if_true, Option.some.injEq, not_false_eq_true, true_and, false_or,
        List.mem_cons, Prod.mk.injEq, List.map_cons, not_true_eq_false, false_and,
        or_false]
      exact eq_comm
    · simp only [h, if_false, List.mem_cons, Prod.mk.injEq, false_and, false_or, List.map_cons]

/-- Collecting entries with distinct keys loses none of them. -/
lemma get_ofList {es : List (κ × ν)} (hk : (es.map Prod.fst).Nodup) :
    (ofList es).get k = some v ↔ (k, v) ∈ es := by
  rw [ofList, get_foldl_insert hk]
  simp

/-! ### Entries as a multiset -/

lemma keys_nodup (m : BTreeMap κ ν) : m.keys.Nodup := by
  rw [keys, List.Nodup, List.pairwise_map]
  exact m.sorted.imp fun h => ne_of_lt h

lemma containsKey_iff : m.containsKey k = true ↔ ∃ v, m.get k = some v := Option.isSome_iff_exists

lemma containsKey_eq_false_iff : m.containsKey k = false ↔ m.get k = none := by
  rw [containsKey, Option.isSome_eq_false_iff, Option.isNone_iff_eq_none]

lemma mem_keys_iff_containsKey : k ∈ m.keys ↔ m.containsKey k = true :=
  mem_keys_iff.trans containsKey_iff.symm

lemma length_keys (m : BTreeMap κ ν) : m.keys.length = m.len := List.length_map _

/-- Two maps that hold the same keys have the same list of keys. -/
lemma keys_eq_of_containsKey {ν' : Type*} {m' : BTreeMap κ ν'}
    (h : ∀ k, m.containsKey k = m'.containsKey k) : m.keys = m'.keys := by
  refine List.Pairwise.eq_of_mem_iff (r := (· < ·)) ?_ ?_ fun k => ?_
  · exact List.pairwise_map.mpr m.sorted
  · exact List.pairwise_map.mpr m'.sorted
  · rw [mem_keys_iff_containsKey, mem_keys_iff_containsKey, h]

/-- A new key comes in addition to the entries. -/
lemma perm_insert (h : m.get k = none) : (m.insert k v).entries.Perm ((k, v) :: m.entries) := by
  have hkey : ∀ e ∈ m.entries, e.1 ≠ k := by
    rintro e he rfl
    rw [get_eq_some_iff.mpr he] at h
    cases h
  change (insertEntry k v m.entries).Perm _
  generalize m.entries = es at hkey
  induction es with
  | nil => exact .refl _
  | cons e es ih =>
    rw [insertEntry]
    split_ifs with hlt heq
    · exact .refl _
    · exact absurd heq.symm (hkey e List.mem_cons_self)
    · have hrest := ih fun e' he' => hkey e' (List.mem_cons_of_mem e he')
      exact (hrest.cons e).trans (.swap _ _ _)

lemma get_remove : (m.remove k).get l = if l = k then none else m.get l := by
  rw [remove, get_retain]
  by_cases h : l = k <;> simp [h]

/-- An entry and the entries that stay when it is removed. -/
lemma perm_remove (h : m.get k = some v) : m.entries.Perm ((k, v) :: (m.remove k).entries) := by
  have hnone : (m.remove k).get k = none := by
    rw [get_remove, if_pos rfl]
  have hback : (m.remove k).insert k v = m := by
    refine eq_of_get_eq fun l => ?_
    rw [get_insert, get_remove]
    by_cases hl : l = k
    · rw [if_pos hl, hl, h]
    · rw [if_neg hl, if_neg hl]
  have hperm := perm_insert (v := v) hnone
  rwa [hback] at hperm

/-- Taking back what was inserted under a new key. -/
lemma remove_insert (h : m.get k = none) : (m.insert k v).remove k = m := by
  refine eq_of_get_eq fun l => ?_
  rw [get_remove, get_insert]
  by_cases hl : l = k
  · rw [if_pos hl, hl, h]
  · rw [if_neg hl, if_neg hl]

lemma len_insert (h : m.get k = none) : (m.insert k v).len = m.len + 1 :=
  (perm_insert h).length_eq

lemma len_remove_le : (m.remove k).len ≤ m.len := List.length_filter_le _ _

lemma len_remove (h : m.get k = some v) : (m.remove k).len + 1 = m.len :=
  (perm_remove h).length_eq.symm

/-- Replacing an entry exchanges what it adds to a count. -/
lemma countP_insert (p : κ × ν → Bool) (h : m.get k = some v) (w : ν) :
    (m.insert k w).entries.countP p + (if p (k, v) then 1 else 0) =
      m.entries.countP p + if p (k, w) then 1 else 0 := by
  have hget : (m.remove k).get k = none := by
    rw [get_remove, if_pos rfl]
  have heq : m.insert k w = (m.remove k).insert k w := by
    refine eq_of_get_eq fun l => ?_
    simp only [get_insert, get_remove]
    split_ifs <;> rfl
  rw [heq, (perm_insert hget).countP_eq, List.countP_cons, (perm_remove h).countP_eq,
    List.countP_cons]
  omega

lemma keys_insert_perm (h : m.get k = none) : (m.insert k v).keys.Perm (k :: m.keys) :=
  (perm_insert h).map Prod.fst

lemma keys_remove_perm (h : m.get k = some v) : m.keys.Perm (k :: (m.remove k).keys) :=
  (perm_remove h).map Prod.fst

/-- Change the values where they are. -/
def mapValues (m : BTreeMap κ ν) (f : ν → ν) : BTreeMap κ ν :=
  ⟨m.entries.map fun e => (e.1, f e.2), List.pairwise_map.mpr m.sorted⟩

lemma get_mapValues {f : ν → ν} : (m.mapValues f).get k = (m.get k).map f := by
  change ((m.entries.map _).find? _).map _ = ((m.entries.find? _).map _).map _
  rw [List.find?_map, Option.map_map, Option.map_map]
  rfl

lemma keys_mapValues {f : ν → ν} : (m.mapValues f).keys = m.keys := by
  change (m.entries.map _).map _ = m.entries.map _
  rw [List.map_map]
  rfl

end BTreeMap

end TouchBar.Rust
